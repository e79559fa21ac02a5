import Formicary.Library.Walk
import Formicary.Verification.Definition.Validation
import Formicary.Verification.Supervisor.Machine

/-! # The graph of the tasks

The routing tables of a job definition make a graph of its tasks. -/

namespace Formicary

open Relation JobSupervisor

namespace JobDefinition

variable {jd : JobDefinition} {t u first : TaskDefinition}

def Edge (jd : JobDefinition) (t u : TaskDefinition) : Prop :=
  t ∈ jd.tasks ∧ u ∈ jd.tasks ∧ u.taskType ∈ t.onExitCode.targets

def Root (jd : JobDefinition) (t : TaskDefinition) : Prop :=
  t ∈ jd.tasks ∧ ∀ u, jd.Edge u t → u = t

/-- There is exactly one root, it is the first task, and all tasks can be reached from it except
for tasks that are always run. -/
def GraphSound (jd : JobDefinition) : Prop :=
  ∃ first, jd.getFirstTask = .ok first ∧ (∀ t, jd.Root t ↔ t = first) ∧
    ∀ t ∈ jd.tasks, t.alwaysRun = false → ReflTransGen jd.Edge first t

/-- What validation leaves open about the task it starts from. A first task whose name is reserved
is not led to, no other task is only led to by itself, and no cycle leads to a task that the first
task does not reach. -/
structure Anchored (jd : JobDefinition) (first : TaskDefinition) : Prop where
  reserved : isReserved first.taskType = true → ∀ u, jd.Edge u first → u = first
  loop : ∀ t, t ≠ first → jd.Edge t t → ∃ u, u ≠ t ∧ jd.Edge u t
  cycle : ∀ c t, TransGen jd.Edge c c → ReflTransGen jd.Edge c t → t.alwaysRun = false →
    ReflTransGen jd.Edge first t

section

variable (hfirst : jd.getFirstTask = .ok first)
include hfirst

theorem root_first (hres : isReserved first.taskType = true → ∀ u, jd.Edge u first → u = first) :
    jd.Root first := by
  obtain ⟨hmem, hunnamed⟩ := (getFirstTask_spec hfirst first).mp rfl
  refine ⟨hmem, fun u hedge => ?_⟩
  cases hname : isReserved first.taskType with
  | true => exact hres hname u hedge
  | false => exact absurd hedge.2.2 (hunnamed hname u hedge.1)

theorem exists_edge (ht : t ∈ jd.tasks) (hne : t ≠ first) : ∃ u, jd.Edge u t := by
  have hnamed := mt (getFirstTask_spec hfirst t).mpr hne
  push Not at hnamed
  obtain ⟨_, u, hu, htarg⟩ := hnamed ht
  exact ⟨u, hu, ht, htarg⟩

theorem root_iff (h : jd.Anchored first) : jd.Root t ↔ t = first := by
  constructor
  · rintro ⟨ht, honly⟩
    by_contra hne
    obtain ⟨u, hedge⟩ := exists_edge hfirst ht hne
    obtain rfl := honly u hedge
    obtain ⟨v, hv, hedge'⟩ := h.loop u hne hedge
    exact hv (honly v hedge')
  · rintro rfl
    exact root_first hfirst h.reserved

end

theorem finite_leading (t : TaskDefinition) :
    {u | ReflTransGen (Function.swap jd.Edge) t u}.Finite := by
  refine ((jd.tasks.finite_toSet).insert t).subset ?_
  intro u h
  rcases ReflTransGen.cases_tail h with rfl | ⟨_, _, hedge⟩
  · exact .inl rfl
  · exact .inr hedge.1

section

variable (hfirst : jd.getFirstTask = .ok first)
include hfirst

theorem reaches_of_acyclic (hacyc : Walk.Acyclic (Function.swap jd.Edge) t) (ht : t ∈ jd.tasks) :
    ReflTransGen jd.Edge first t := by
  have hacc : Acc jd.Edge t := hacyc.acc (finite_leading t)
  clear hacyc
  induction hacc with
  | intro t _ ih =>
    by_cases hne : t = first
    · rw [hne]
    obtain ⟨u, hedge⟩ := exists_edge hfirst ht hne
    exact (ih u hedge hedge.1).tail hedge

theorem reaches_of_anchored (h : jd.Anchored first)
    (ht : t ∈ jd.tasks) (hrun : t.alwaysRun = false) : ReflTransGen jd.Edge first t := by
  by_cases hacyc : Walk.Acyclic (Function.swap jd.Edge) t
  · exact reaches_of_acyclic hfirst hacyc ht
  unfold Walk.Acyclic at hacyc
  push Not at hacyc
  obtain ⟨c, hleads, hcycle⟩ := hacyc
  exact h.cycle c t (transGen_swap.mp hcycle) (reflTransGen_swap.mp hleads) hrun

theorem anchored_of_graphSound (h : jd.GraphSound) : jd.Anchored first := by
  obtain ⟨first', hfirst', hroot, hreach⟩ := h
  obtain rfl : first' = first := Except.ok.inj (hfirst'.symm.trans hfirst)
  refine ⟨fun _ => ((hroot first').mpr rfl).2, fun t hne hedge => ?_,
    fun c t hcycle hleads hrun => ?_⟩
  · have hnot : ¬ jd.Root t := mt (hroot t).mp hne
    unfold Root at hnot
    push Not at hnot
    obtain ⟨u, hu, hother⟩ := hnot hedge.1
    exact ⟨u, hother, hu⟩
  · refine hreach t ?_ hrun
    rcases ReflTransGen.cases_tail hleads with rfl | ⟨_, _, hedge⟩
    · obtain ⟨_, hedge, _⟩ := TransGen.head'_iff.mp hcycle
      exact hedge.1
    · exact hedge.2.1

end

end JobDefinition

namespace Workflow

/-- The task that a validated workflow starts from has the property. -/
def Starts (w : Workflow) (P : TaskDefinition → Prop) : Prop :=
  ∀ first, w.stored.getFirstTask = .ok first → P first

/-- The graph of an accepted job definition is sound exactly if the definition is anchored in its
first task. -/
theorem graphSound_iff_anchored (w : Workflow) :
    w.stored.GraphSound ↔ w.Starts w.stored.Anchored := by
  obtain ⟨first, hfirst⟩ := w.stored_accepted.first
  constructor
  · intro h first' hfirst'
    exact JobDefinition.anchored_of_graphSound hfirst' h
  · intro h
    have hanch := h first hfirst
    exact ⟨first, hfirst, fun _ => JobDefinition.root_iff hfirst hanch,
      fun _ => JobDefinition.reaches_of_anchored hfirst hanch⟩

/-- Validation accepts two tasks that only lead to each other. -/
def buildApart : Workflow :=
  .ofDeclared (jobOf [shellTask "build" "publish",
    shellTask "publish" "", shellTask "retry" "again",
    shellTask "again" "retry"]) (by decide)

theorem mem_of_reaches {jd : JobDefinition} {names : List String}
    (hclos : ∀ t ∈ jd.tasks, t.taskType ∈ names → ∀ next ∈ t.onExitCode.targets, next ∈ names)
    {t u : TaskDefinition} (h : ReflTransGen jd.Edge t u) (ht : t.taskType ∈ names) :
    u.taskType ∈ names := by
  induction h with
  | refl => exact ht
  | tail _ hedge ih => exact hclos _ hedge.1 ih _ hedge.2.2

/-- The tasks that only lead to each other are never reached. -/
theorem retry_unreachable : ¬ buildApart.stored.GraphSound := by
  rintro ⟨first, hfirst, _, hreach⟩
  have hname : first.taskType = "build" := by
    have hbuild : buildApart.stored.getFirstTask.toOption.map TaskDefinition.taskType =
      some "build" := by decide
    rw [hfirst] at hbuild
    exact Option.some.inj hbuild
  have hretry : ∃ t ∈ buildApart.stored.tasks, t.taskType = "retry" ∧ t.alwaysRun = false := by
    decide
  obtain ⟨t, ht, htype, hrun⟩ := hretry
  have hmem : t.taskType ∈ ["build", "publish"] := by
    refine mem_of_reaches ?_ (hreach t ht hrun) (by simp [hname])
    decide
  rw [htype] at hmem
  exact absurd hmem (by decide)

end Workflow

end Formicary

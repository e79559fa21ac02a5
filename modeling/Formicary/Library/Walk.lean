import Mathlib

/-! # Walks along a relation

From a point from which a relation reaches finitely many others, its walks all end if and only if it
reaches no cycle. -/

namespace Walk

open Relation

variable {α : Type*} {r : α → α → Prop} {a : α}

/-- A relation reaches no cycle from a point. -/
def Acyclic (r : α → α → Prop) (a : α) : Prop :=
  ∀ b, ReflTransGen r a b → ¬ TransGen r b b

theorem Acyclic.acc (h : Acyclic r a) (hfinite : {b | ReflTransGen r a b}.Finite) :
    Acc (Function.swap r) a := by
  have : Finite {b // ReflTransGen r a b} := hfinite
  let before : {b // ReflTransGen r a b} → {b // ReflTransGen r a b} → Prop :=
    fun x y => TransGen r y.1 x.1
  have : IsTrans _ before := ⟨fun _ _ _ hxy hyz => hyz.trans hxy⟩
  have : Std.Irrefl before := ⟨fun x => h x.1 x.2⟩
  have hwf : WellFounded before := Finite.wellFounded_of_trans_of_irrefl before
  suffices hacc : ∀ x : {b // ReflTransGen r a b}, Acc (Function.swap r) x.1 from hacc ⟨a, .refl⟩
  intro x
  induction x using hwf.induction with
  | _ x ih =>
    refine Acc.intro _ fun y hy => ?_
    exact ih ⟨y, x.2.tail hy⟩ (.single hy)

theorem exists_forever (h : ¬ Acyclic r a) : ∃ (onward : Set α) (next : α → α), a ∈ onward ∧
      ∀ x ∈ onward, r x (next x) ∧ next x ∈ onward := by
  classical
  unfold Acyclic at h
  push Not at h
  obtain ⟨b, hab, hcycle⟩ := h
  have hstep : ∀ x, ReflTransGen r x b → ∃ y, r x y ∧ ReflTransGen r y b := by
    intro x hx
    rcases ReflTransGen.cases_head hx with rfl | hhead
    · exact TransGen.head'_iff.mp hcycle
    · exact hhead
  refine ⟨{x | ReflTransGen r x b},
    fun x => if hx : ReflTransGen r x b then (hstep x hx).choose else x, hab, fun x hx => ?_⟩
  have hx' : ReflTransGen r x b := hx
  simp only [dif_pos hx']
  exact (hstep x hx').choose_spec

end Walk

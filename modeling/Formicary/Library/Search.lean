import Mathlib

/-! # Breadth-first search down to a depth

A queue of points with their depths, and a list of the points that have been found. -/

namespace Search

open List

variable {α : Type*}

/-- A path of the given number of steps. -/
inductive Path (next : α → List α) (root : α) : α → ℕ → Prop where
  | nil : Path next root root 0
  | snoc {x y : α} {k : ℕ} : Path next root x k → y ∈ next x → Path next root y (k + 1)

structure State (α : Type*) where
  found : List α
  queue : List (α × ℕ)
  /-- what has left the queue -/
  expanded : List (α × ℕ)

variable [DecidableEq α]

def visit (depth : ℕ) (s : State α) (x : α) : State α :=
  if x ∈ s.found then s
  else { s with found := s.found ++ [x], queue := s.queue ++ [(x, depth + 1)] }

variable (next : α → List α) (limit : ℕ)

def step (s : State α) : State α :=
  match s.queue with
  | [] => s
  | (x, depth) :: queue =>
    let s := { s with queue := queue, expanded := s.expanded ++ [(x, depth)] }
    if limit ≤ depth then s else (next x).foldl (visit depth) s

def run : ℕ → State α → State α
  | 0, s => s
  | n + 1, s => run n (step next limit s)

def init (root : α) : State α := ⟨[], [(root, 0)], []⟩

theorem visit_of_mem {s : State α} {x : α} (hx : x ∈ s.found) (depth : ℕ) :
    visit depth s x = s := if_pos hx

theorem foldl_visit_filter (depth : ℕ) (xs : List α) (s : State α) :
    (xs.filter (· ∉ s.found)).foldl (visit depth) s = xs.foldl (visit depth) s := by
  suffices hgen : ∀ (found : List α) (s : State α), found ⊆ s.found →
      (xs.filter (· ∉ found)).foldl (visit depth) s = xs.foldl (visit depth) s from
    hgen s.found s (List.Subset.refl _)
  intro found
  induction xs with
  | nil => intro s _; rfl
  | cons x xs ih =>
    intro s hs
    by_cases hx : x ∈ found
    · rw [filter_cons_of_neg (by simpa using hx), foldl_cons, visit_of_mem (hs hx)]
      exact ih s hs
    rw [filter_cons_of_pos (by simpa using hx), foldl_cons, foldl_cons]
    apply ih
    intro y hy
    unfold visit
    split
    · exact hs hy
    · exact mem_append_left _ (hs hy)

theorem foldl_visit_eq (depth : ℕ) (xs : List α) (s : State α) : ∃ new, xs.foldl (visit depth) s =
        { s with found := s.found ++ new, queue := s.queue ++ new.map (·, depth + 1) } ∧
      new ⊆ xs ∧ xs ⊆ s.found ++ new ∧ (s.found.Nodup → (s.found ++ new).Nodup) := by
  induction xs generalizing s with
  | nil => exact ⟨[], by simp⟩
  | cons x xs ih =>
    rw [foldl_cons]
    by_cases hx : x ∈ s.found
    · rw [visit_of_mem hx]
      obtain ⟨new, heq, hnew, hall, hnodup⟩ := ih s
      refine ⟨new, heq, fun y hy => mem_cons_of_mem _ (hnew hy), ?_, hnodup⟩
      intro y hy
      rcases mem_cons.mp hy with rfl | hy
      · exact mem_append_left _ hx
      · exact hall hy
    obtain ⟨new, heq, hnew, hall, hnodup⟩ := ih (visit depth s x)
    rw [visit, if_neg hx] at heq hall hnodup
    refine ⟨x :: new, ?_, ?_, ?_, ?_⟩
    · rw [visit, if_neg hx, heq]
      simp
    · intro y hy
      rcases mem_cons.mp hy with rfl | hy
      · exact mem_cons_self
      · exact mem_cons_of_mem _ (hnew hy)
    · intro y hy
      rcases mem_cons.mp hy with rfl | hy
      · simp
      · simpa using hall hy
    · intro hs
      have hfirst : (s.found ++ [x]).Nodup :=
        nodup_append_comm.mp (nodup_cons.mpr ⟨by simpa using hx, by simpa using hs⟩)
      simpa using hnodup hfirst

theorem step_cons (found : List α) (queue expanded : List (α × ℕ)) (head : α × ℕ) :
    ∃ new, step next limit ⟨found, head :: queue, expanded⟩ =
        ⟨found ++ new, queue ++ new.map (·, head.2 + 1), expanded ++ [head]⟩ ∧
      (∀ y ∈ new, head.2 < limit ∧ y ∈ next head.1) ∧
      (head.2 < limit → next head.1 ⊆ found ++ new) ∧ (found.Nodup → (found ++ new).Nodup) := by
  simp only [step]
  split
  case isTrue hdeep => exact ⟨[], by simp; omega⟩
  case isFalse hdeep =>
    obtain ⟨new, heq, hnew, hall, hnodup⟩ :=
      foldl_visit_eq head.2 (next head.1) ⟨found, queue, expanded ++ [head]⟩
    exact ⟨new, heq, fun y hy => ⟨Nat.lt_of_not_le hdeep, hnew hy⟩, fun _ => hall, hnodup⟩

/-- The points have come into the queue in the order of their depths, each at the end of a path of
that length. What has left the queue above the limit has all its successors among them. -/
structure Inv (root : α) (s : State α) (pushed : List (α × ℕ)) : Prop where
  items : s.expanded ++ s.queue = (root, 0) :: pushed
  found : pushed.map Prod.fst = s.found
  nodup : s.found.Nodup
  order : ((root, 0) :: pushed).Pairwise fun a b => a.2 ≤ b.2
  near : ∀ head ∈ s.queue.head?, ∀ item ∈ pushed, item.2 ≤ head.2 + 1
  closed : ∀ item ∈ s.expanded, item.2 < limit → ∀ y ∈ next item.1,
    ∃ depth ≤ item.2 + 1, (y, depth) ∈ pushed
  sound : ∀ item ∈ pushed, 1 ≤ item.2 ∧ item.2 ≤ limit ∧ Path next root item.1 item.2

variable {next limit} {root : α} {s : State α} {pushed : List (α × ℕ)}

omit [DecidableEq α] in
theorem inv_init (next : α → List α) (limit : ℕ) (root : α) :
    Inv next limit root (init root) [] where
  items := rfl
  found := rfl
  nodup := nodup_nil
  order := pairwise_singleton _ _
  near := by simp
  closed := by simp [init]
  sound := by simp

omit [DecidableEq α] in
theorem Inv.path_of_mem (h : Inv next limit root s pushed) (item : α × ℕ)
    (hitem : item ∈ s.expanded ++ s.queue) : Path next root item.1 item.2 := by
  rw [h.items] at hitem
  rcases mem_cons.mp hitem with rfl | hitem
  · exact .nil
  · exact (h.sound item hitem).2.2

theorem inv_step (h : Inv next limit root s pushed) :
    ∃ new, Inv next limit root (step next limit s) (pushed ++ new) := by
  obtain ⟨found, queue, expanded⟩ := s
  cases queue with
  | nil =>
    refine ⟨[], ?_⟩
    rw [append_nil]
    exact h
  | cons head queue =>
    obtain ⟨x, depth⟩ := head
    have hnear : ∀ item ∈ pushed, item.2 ≤ depth + 1 := h.near (x, depth) rfl
    have hpath : Path next root x depth := h.path_of_mem (x, depth) (by simp)
    have hitems : expanded ++ [(x, depth)] ++ queue = (root, 0) :: pushed := by
      simpa using h.items
    have hlater : ∀ item ∈ queue, depth ≤ item.2 := by
      have hsort := h.order
      rw [← hitems, append_assoc, pairwise_append] at hsort
      exact (pairwise_cons.mp hsort.2.1).1
    obtain ⟨new, heq, hnew, hall, hnodup⟩ := step_cons next limit found queue expanded (x, depth)
    rw [heq]
    refine ⟨new.map (·, depth + 1), ?_⟩
    have hdepths : ∀ item ∈ new.map (·, depth + 1), item.2 = depth + 1 := by
      intro item hitem
      obtain ⟨y, -, rfl⟩ := mem_map.mp hitem
      rfl
    have hbound : ∀ item ∈ pushed ++ new.map (·, depth + 1), item.2 ≤ depth + 1 := by
      intro item hitem
      rcases mem_append.mp hitem with hitem | hitem
      · exact hnear item hitem
      · exact (hdepths item hitem).le
    constructor
    case items =>
      dsimp only
      rw [← append_assoc, hitems, cons_append]
    case found =>
      have hfound : pushed.map Prod.fst = found := h.found
      simp [hfound, Function.comp_def]
    case nodup => exact hnodup h.nodup
    case order =>
      rw [← cons_append, pairwise_append]
      refine ⟨h.order, ?_, ?_⟩
      · rw [pairwise_map]
        exact pairwise_of_forall fun _ _ => le_rfl
      intro item hitem item' hitem'
      rw [hdepths item' hitem']
      rcases mem_cons.mp hitem with rfl | hitem
      · exact Nat.zero_le _
      · exact hnear item hitem
    case near =>
      intro item' hitem' item hitem
      have hdeeper : depth ≤ item'.2 := by
        rcases mem_append.mp (mem_of_head? hitem') with hmem | hmem
        · exact hlater item' hmem
        rw [hdepths item' hmem]
        exact Nat.le_succ _
      exact (hbound item hitem).trans (Nat.add_le_add_right hdeeper 1)
    case closed =>
      intro item hitem hlt y hy
      rcases mem_append.mp hitem with hitem | hitem
      · obtain ⟨depth', hle, hmem⟩ := h.closed item hitem hlt y hy
        exact ⟨depth', hle, mem_append_left _ hmem⟩
      cases mem_singleton.mp hitem
      rcases mem_append.mp (hall hlt hy) with hmem | hmem
      · have hpushed : y ∈ pushed.map Prod.fst := h.found ▸ hmem
        obtain ⟨item, hitem, rfl⟩ := mem_map.mp hpushed
        exact ⟨item.2, hnear item hitem, mem_append_left _ hitem⟩
      · exact ⟨depth + 1, le_rfl, mem_append_right _ (mem_map_of_mem hmem)⟩
    case sound =>
      intro item hitem
      rcases mem_append.mp hitem with hitem | hitem
      · exact h.sound item hitem
      obtain ⟨y, hy, rfl⟩ := mem_map.mp hitem
      exact ⟨Nat.succ_pos _, (hnew y hy).1, hpath.snoc (hnew y hy).2⟩

theorem inv_run (n : ℕ) (h : Inv next limit root s pushed) :
    ∃ pushed', Inv next limit root (run next limit n s) pushed' := by
  induction n generalizing s pushed with
  | zero => exact ⟨pushed, h⟩
  | succ n ih =>
    obtain ⟨new, hnew⟩ := inv_step h
    exact ih hnew

theorem step_measure (limit : ℕ) {all : List α} (hall : ∀ x, next x ⊆ all) (hfound : s.found ⊆ all)
    (hne : s.queue ≠ []) :
    (step next limit s).found ⊆ all ∧ (step next limit s).queue.length + s.found.length + 1 =
        s.queue.length + (step next limit s).found.length := by
  obtain ⟨found, queue, expanded⟩ := s
  cases queue with
  | nil => exact absurd rfl hne
  | cons head queue =>
    obtain ⟨new, heq, hnew, -, -⟩ := step_cons next limit found queue expanded head
    rw [heq]
    refine ⟨?_, ?_⟩
    · intro y hy
      rcases mem_append.mp hy with hy | hy
      · exact hfound hy
      · exact hall head.1 (hnew y hy).2
    · simp
      omega

theorem run_of_queue_eq_nil (n : ℕ) (hnil : s.queue = []) : run next limit n s = s := by
  induction n with
  | zero => rfl
  | succ n ih =>
    have hstep : step next limit s = s := by rw [step, hnil]
    rw [run, hstep, ih]

theorem queue_run {all : List α} (hall : ∀ x, next x ⊆ all) (n : ℕ)
    (h : Inv next limit root s pushed) (hfound : s.found ⊆ all)
    (hn : s.queue.length + all.length ≤ n + s.found.length) : (run next limit n s).queue = [] := by
  induction n generalizing s pushed with
  | zero =>
    have hle := (subperm_of_subset h.nodup hfound).length_le
    have hzero : s.queue.length = 0 := by omega
    exact eq_nil_of_length_eq_zero hzero
  | succ n ih =>
    by_cases hnil : s.queue = []
    · rw [run_of_queue_eq_nil _ hnil, hnil]
    obtain ⟨new, hnew⟩ := inv_step h
    obtain ⟨hfound', hmeasure⟩ := step_measure limit hall hfound hnil
    exact ih hnew hfound' (by omega)

theorem Inv.mem_found_iff (h : Inv next limit root s pushed) (hnil : s.queue = []) (y : α) :
    y ∈ s.found ↔ ∃ k, 1 ≤ k ∧ k ≤ limit ∧ Path next root y k := by
  have hexpd : s.expanded = (root, 0) :: pushed := by
    have hitems := h.items
    rwa [hnil, append_nil] at hitems
  -- a path is followed by points of at most its depths
  have hfollow : ∀ k y, Path next root y k → k ≤ limit →
      ∃ depth ≤ k, (y, depth) ∈ s.expanded ∧ (1 ≤ k → (y, depth) ∈ pushed) := by
    intro k y hpath
    induction hpath with
    | nil =>
      intro _
      exact ⟨0, le_rfl, by simp [hexpd], by omega⟩
    | @snoc x y k _ hy ih =>
      intro hle
      obtain ⟨depth, hdepth, hmem, -⟩ := ih (by omega)
      obtain ⟨depth', hdepth', hmem'⟩ := h.closed (x, depth) hmem (by dsimp only; omega) y hy
      refine ⟨depth', by dsimp only at hdepth'; omega, ?_, fun _ => hmem'⟩
      rw [hexpd]
      exact mem_cons_of_mem _ hmem'
  rw [← h.found, mem_map]
  constructor
  · rintro ⟨item, hitem, rfl⟩
    exact ⟨item.2, h.sound item hitem⟩
  · rintro ⟨k, hpos, hle, hpath⟩
    obtain ⟨depth, -, -, hmem⟩ := hfollow k y hpath hle
    exact ⟨(y, depth), hmem hpos, rfl⟩

theorem run_spec (limit : ℕ) {all : List α} (hall : ∀ x, next x ⊆ all) {n : ℕ}
    (hn : all.length + 1 ≤ n) (root : α) :
    (run next limit n (init root)).queue = [] ∧ (run next limit n (init root)).found.Nodup ∧
      ∀ y, y ∈ (run next limit n (init root)).found ↔
        ∃ k, 1 ≤ k ∧ k ≤ limit ∧ Path next root y k := by
  obtain ⟨pushed, hinv⟩ := inv_run n (inv_init next limit root)
  have hnil : (run next limit n (init root)).queue = [] := by
    apply queue_run hall n (inv_init next limit root)
    · exact nil_subset _
    · simp only [init, length_cons, length_nil]
      omega
  exact ⟨hnil, hinv.nodup, hinv.mem_found_iff hnil⟩

end Search

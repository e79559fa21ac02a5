import Formicary.Model.Utils

/-! # Names of containers and rolling averages -/

namespace Formicary.Utils

open List

/-- A label up to its end. -/
structure Begins (name : List Char) : Prop where
  size : name.length ≤ 63
  chars : ∀ c ∈ name, c = '-' ∨ isAlphanumeric c = true
  first : ∀ c ∈ name.head?, isAlphanumeric c = true

/-- A DNS-1123 label. -/
structure IsLabel (name : List Char) : Prop extends Begins name where
  nonempty : name ≠ []
  last : ∀ c ∈ name.getLast?, isAlphanumeric c = true

variable (m : Lowering) {name : String}

/-- A character of a name of which a label keeps a letter, a digit or a hyphen. -/
def keeps (c : Char) : Bool :=
  m.lower c == '_' || m.lower c == '-' || isAlphanumeric (m.lower c)

/-- What is kept of a name begins with its first letter or digit. -/
def kept (name : List Char) : List Char :=
  (name.dropWhile fun c => !isAlphanumeric (m.lower c)).filter (keeps m)

/-- A name is cut after the 63rd character that is kept, or after the last one. -/
def cut (name : List Char) : Option Char :=
  (kept m name)[62]?.or (kept m name).getLast?

theorem dropWhile_filter_keeps (l : List Char) :
    (l.filter (keeps m)).dropWhile (fun c => !isAlphanumeric (m.lower c)) = kept m l := by
  induction l with
  | nil => rfl
  | cons c l ih =>
    unfold kept at ih ⊢
    by_cases hstart : isAlphanumeric (m.lower c) = true
    · simp [keeps, hstart]
    · by_cases hkeep : keeps m c = true <;> simp [hkeep, hstart, ih]

theorem makeDNS1123Compatible_toList (name : String) : (makeDNS1123Compatible m name).toList =
      ((kept m name.toList).take 63).map fun c => if m.lower c = '_' then '-' else m.lower c := by
  have hkeeps : ((fun c => c == '-' || isAlphanumeric c) ∘
      fun c => if m.lower c = '_' then '-' else m.lower c) = keeps m := by
    funext c
    by_cases h : m.lower c = '_'
    · simp [keeps, h]
    · simp [keeps, h, beq_false_of_ne h]
  have hstarts : ((fun c => !isAlphanumeric c) ∘
      fun c => if m.lower c = '_' then '-' else m.lower c) =
        fun c => !isAlphanumeric (m.lower c) := by
    funext c
    by_cases h : m.lower c = '_'
    · simp [h]
      decide
    · simp [h]
  have htake {α : Type} (l : List α) : (if l.length > 63 then l.take 63 else l) = l.take 63 := by
    split
    · rfl
    · exact (take_of_length_le (by omega)).symm
  simp only [makeDNS1123Compatible, String.toList_ofList, dns1123NameMaximumLength, htake, map_map]
  rw [← dropWhile_filter_keeps, ← hkeeps, ← hstarts, map_take, ← dropWhile_map, ← filter_map]
  rfl

theorem begins_makeDNS1123Compatible (name : String) :
    Begins (makeDNS1123Compatible m name).toList := by
  rw [makeDNS1123Compatible_toList]
  refine ⟨(length_map _).trans_le (length_take_le _ _), fun c hc => ?_, fun c hc => ?_⟩
  · obtain ⟨d, hd, rfl⟩ := mem_map.mp hc
    have hkeep := (mem_filter.mp (mem_of_mem_take hd)).2
    split
    · exact .inl rfl
    · simpa [keeps, *] using hkeep
  · rw [head?_map, head?_take, if_neg (by decide)] at hc
    obtain ⟨d, hd, rfl⟩ := Option.map_eq_some_iff.mp hc
    have hstart := head?_dropWhile_not (fun c => !isAlphanumeric (m.lower c))
      (name.toList.filter (keeps m))
    rw [dropWhile_filter_keeps, hd] at hstart
    split
    · next h =>
      simp only [h] at hstart
      exact absurd hstart (by decide)
    · simpa using hstart

theorem makeDNS1123Compatible_of_begins (h : Begins name.toList) :
    makeDNS1123Compatible m name = name := by
  have hmap : ∀ f : Char → Char, (∀ c, c = '-' ∨ isAlphanumeric c = true → f c = c) →
      name.toList.map f = name.toList := by
    intro f hf
    rw [map_congr_left fun c hc => hf c (h.chars c hc), map_id']
  have hreplace : (name.toList.map fun c => if c = '_' then '-' else c) = name.toList := by
    refine hmap _ fun c hc => if_neg ?_
    rintro rfl
    exact absurd hc (by decide)
  have hfilter : (name.toList.filter fun c => c == '-' || isAlphanumeric c) = name.toList := by
    simpa using h.chars
  have hdrop : (name.toList.dropWhile fun c => !isAlphanumeric c) = name.toList := by
    cases hl : name.toList with
    | nil => rfl
    | cons c l => simp [h.first c (by simp [hl])]
  have hsize := h.size
  simp only [makeDNS1123Compatible, hmap _ m.lower_eq, hreplace, hfilter, hdrop,
    dns1123NameMaximumLength]
  rw [if_neg (by omega), String.ofList_toList]

theorem getLast?_eq_hyphen_iff (name : String) :
    (makeDNS1123Compatible m name).toList.getLast? = some '-' ↔
      ∃ c ∈ cut m name.toList, m.lower c = '-' ∨ m.lower c = '_' := by
  rw [makeDNS1123Compatible_toList, getLast?_map, getLast?_take, if_neg (by decide),
    Option.map_eq_some_iff]
  refine exists_congr fun c => and_congr_right fun _ => ?_
  split <;> simp_all

/-- A name that was made compatible is empty or a label exactly if the name is not cut after a
hyphen or an underscore. It stays as it is when it is made compatible again. -/
theorem isLabel_iff_cut (m : Lowering) (name : String) :
    let label := makeDNS1123Compatible m name
    (label = "" ∨ IsLabel label.toList ↔
        ∀ c ∈ cut m name.toList, m.lower c ≠ '-' ∧ m.lower c ≠ '_') ∧
      makeDNS1123Compatible m label = label := by
  intro label
  have h : Begins label.toList := begins_makeDNS1123Compatible m name
  have hend : (∀ c ∈ cut m name.toList, m.lower c ≠ '-' ∧ m.lower c ≠ '_') ↔
      label.toList.getLast? ≠ some '-' := by
    simp only [ne_eq, label, getLast?_eq_hyphen_iff, not_exists, not_and, not_or]
  rw [hend]
  refine ⟨⟨?_, fun hlast => ?_⟩, makeDNS1123Compatible_of_begins m h⟩
  · rintro (hempty | hlabel) hlast
    · simp [hempty] at hlast
    · exact absurd (hlabel.last _ hlast) (by decide)
  by_cases hempty : label = ""
  · exact .inl hempty
  refine .inr ⟨h, by simpa using hempty, fun c hc => ?_⟩
  refine (h.chars c (mem_of_getLast? hc)).resolve_left ?_
  rintro rfl
  exact hlast hc

def lowerASCII : Lowering where
  lower := Char.toLower
  lower_eq c hc := by
    rcases hc with rfl | hc
    · rfl
    · simp [isAlphanumeric, Char.le_def, UInt32.le_iff_toNat_le] at hc
      simp [Char.toLower, UInt32.le_iff_toNat_le]
      omega

theorem not_isLabel_build : makeDNS1123Compatible lowerASCII "Build_" = "build-" ∧
    ¬ IsLabel "build-".toList :=
  ⟨by decide, fun h => absurd (h.last '-' rfl) (by decide)⟩

end Formicary.Utils

namespace Formicary.RollingAverage

open List

variable {c : ℕ} {positive : List Int64} {r : RollingAverage} {x : Int64}

/-- The oldest sample leaves the ring when a new one is written over it. -/
theorem rotate_set {l : List Int64} {i : ℕ} (h : i < l.length) (x : Int64) :
    ∃ rest, l.rotate i = l.getD i 0 :: rest ∧ (l.set i x).rotate (i + 1) = rest ++ [x] := by
  obtain ⟨l₁, l₂, hl, hi, hset⟩ := @exists_of_set _ i x l h
  refine ⟨l₂ ++ l₁, ?_, ?_⟩
  · have hold := rotate_append_length_eq l₁ (l[i] :: l₂)
    rw [← hl, hi] at hold
    simpa [h] using hold
  · have hnew := rotate_append_length_eq (l₁ ++ [x]) l₂
    simpa [hset, hi] using hnew

/-- What the ring holds after some positive samples, from the oldest one on. -/
structure Covers (c : ℕ) (positive : List Int64) (r : RollingAverage) : Prop where
  size : r.samples.length = c
  index : r.index < c
  ring : r.samples.rotate r.index = (replicate c 0 ++ positive).drop positive.length
  length : r.length = min positive.length c
  total : r.total.toInt = ((r.samples.rotate r.index).map Int64.toInt).sum.bmod (2 ^ 64)

theorem Covers.add (h : Covers c positive r) (hx : 0 < x) :
    Covers c (positive ++ [x]) (r.add x) := by
  have hindex := h.index
  have hsize := h.size
  have hlength := h.length
  have htotal := h.total
  have hx' := Int64.not_le.mpr hx
  obtain ⟨rest, hold, hnew⟩ := rotate_set (hsize.symm ▸ hindex) x
  -- the ring is rotated by one more, also when the index goes back to 0
  have hring : (r.add x).samples.rotate (r.add x).index = rest ++ [x] := by
    rw [← hnew, RollingAverage.add, if_neg hx']
    split
    · have hend : r.index + 1 = (r.samples.set r.index x).length := by
        rw [length_set]
        omega
      rw [hend, rotate_length, rotate_zero]
    · rfl
  constructor
  case ring =>
    have hrest : rest = (replicate c 0 ++ positive).drop (positive.length + 1) := by
      rw [← tail_drop, ← h.ring, hold, tail_cons]
    have hle : positive.length + 1 ≤ (replicate c (0 : Int64) ++ positive).length := by
      rw [length_append, length_replicate]
      omega
    rw [hring, hrest, ← append_assoc, length_append, length_singleton, drop_append_of_le_length hle]
  case total =>
    rw [hold, map_cons, sum_cons] at htotal
    rw [hring, RollingAverage.add, if_neg hx']
    simp only [Int64.toInt_add, Int64.toInt_neg, htotal, map_append, sum_append, map_cons, map_nil,
      sum_cons, sum_nil, Int.bmod_add_bmod, Int.add_bmod_bmod]
    congr 1
    omega
  all_goals
    simp only [RollingAverage.add, if_neg hx', length_set, length_append, length_singleton, hlength,
      hsize]
  all_goals split <;> omega

theorem covers_foldl (c : ℕ) (xs : List Int64) : Covers (c + 1) (xs.filter (0 < ·))
    (xs.foldl RollingAverage.add (newRollingAverage (c + 1))) := by
  induction xs using reverseRecOn with
  | nil => constructor <;> simp [newRollingAverage]
  | append_singleton xs x ih =>
    by_cases hx : 0 < x
    · simpa [hx] using ih.add hx
    · simpa [RollingAverage.add, hx, Int64.not_lt.mp hx] using ih

/-- The total is the sum of the last positive samples, as many as there are or fit, exactly if that
sum fits into 64 bits. The average divides it by their number, or by one. -/
theorem total_eq_sum_iff (c : ℕ) (xs : List Int64) :
    let r : RollingAverage := xs.foldl RollingAverage.add (newRollingAverage (c + 1))
    let positive := xs.filter (0 < ·)
    let sum := ((positive.drop (positive.length - (c + 1))).map Int64.toInt).sum
    (r.total.toInt = sum ↔ sum < 2 ^ 63) ∧ ∀ {α : Type} (divide : Int64 → ℕ → α),
      r.average divide = divide r.total (max 1 (min positive.length (c + 1))) := by
  intro r positive sum
  have h : Covers (c + 1) positive r := covers_foldl c xs
  constructor
  · have hnonneg : 0 ≤ sum := by
      refine sum_nonneg fun n hn => ?_
      obtain ⟨x, hx, rfl⟩ := mem_map.mp hn
      have hpos := (mem_filter.mp (mem_of_mem_drop hx)).2
      rw [decide_eq_true_eq, Int64.lt_iff_toInt_lt] at hpos
      exact hpos.le
    have htotal := h.total
    rw [h.ring, drop_append, map_append, sum_append] at htotal
    simp [-map_drop] at htotal
    rw [htotal, Int.bmod_def]
    split <;> omega
  · intro α divide
    rw [average, h.size, h.length]
    congr 2
    omega

theorem total_overflow : ([9223372036854775807, 1].foldl RollingAverage.add
    (newRollingAverage 2)).total.toInt = -2 ^ 63 := by
  decide

end Formicary.RollingAverage

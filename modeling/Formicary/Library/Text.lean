import Formicary.Library.Replace

/-! # Text

String operations by the characters of the string, so that they compute on literals. -/

namespace Text

open List
open String (ofList singleton toList toList_injective toList_ofList)

/-- The upper case of a character, if it is an ASCII letter; others are left alone. -/
def upper (c : Char) : Char :=
  if c = 'ſ' then 'S' else if c = 'ı' then 'I' else c.toUpper

def toUpper (s : String) : String :=
  String.ofList (s.toList.map upper)

@[simp] theorem upper_upper (c : Char) : upper (upper c) = upper c := by
  unfold upper
  split
  · rfl
  split
  · rfl
  next hs hi =>
  have hne : ∀ d : Char, d.isAlpha = false → c ≠ d → c.toUpper ≠ d := by
    intro d hd hc heq
    rw [← heq, Char.isAlpha_toUpper_eq_isAlpha, Char.isAlpha, Bool.or_eq_false_iff] at hd
    rw [Char.toUpper_eq_of_not_isLower (by simp [hd.2])] at heq
    exact hc heq
  rw [if_neg (hne _ rfl hs), if_neg (hne _ rfl hi), Char.toUpper_toUpper_eq_toUpper]

/-- Equality up to case: a dotless i is no i here, but the sign of the kelvin is a K. -/
def equalFold (s t : String) : Bool :=
  let fold c := if c = 'ı' then c else if c = '\u212a' then 'K' else upper c
  s.toList.map fold == t.toList.map fold

/-- White space, by code point. -/
def isSpace (c : Char) : Bool :=
  let n := c.toNat
  (9 ≤ n && n ≤ 13) || n == 0x20 || n == 0x85 || n == 0xa0 || n == 0x1680 ||
    (0x2000 ≤ n && n ≤ 0x200a) || n == 0x2028 || n == 0x2029 || n == 0x202f || n == 0x205f ||
    n == 0x3000

/-- Cuts white space off both ends. -/
def trimSpace (s : String) : String :=
  String.ofList ((s.toList.dropWhile isSpace).reverse.dropWhile isSpace).reverse

theorem trimSpace_start (s : String) : (trimSpace s).toList <+: s.toList.dropWhile isSpace := by
  rw [trimSpace, toList_ofList, ← reverse_suffix, reverse_reverse]
  exact dropWhile_suffix isSpace

variable {s : String} {c : Char}

theorem trimSpace_trimSpace (s : String) : trimSpace (trimSpace s) = trimSpace s := by
  have hdrop : ∀ l : List Char, (l.dropWhile isSpace).dropWhile isSpace = l.dropWhile isSpace :=
    fun l => dropWhile_eq_self_iff.mpr (dropWhile_get_zero_not isSpace l)
  have hhead : (trimSpace s).toList.dropWhile isSpace = (trimSpace s).toList := by
    refine dropWhile_eq_self_iff.mpr fun hl => ?_
    have hstart := trimSpace_start s
    rw [hstart.getElem hl]
    exact dropWhile_get_zero_not isSpace s.toList (hl.trans_le hstart.length_le)
  rw [trimSpace, hhead, trimSpace, toList_ofList, reverse_reverse, hdrop]

/-- The characters of a text that are not white space. -/
def ink (s : String) : ℕ :=
  s.toList.countP fun c => !isSpace c

theorem ink_trimSpace (s : String) : ink (trimSpace s) = ink s := by
  have hdrop : ∀ l : List Char, (l.dropWhile isSpace).countP (fun c => !isSpace c) =
      l.countP fun c => !isSpace c := by
    intro l
    induction l with
    | nil => rfl
    | cons c l ih => cases hc : isSpace c <;> simp [hc, ih]
  rw [ink, trimSpace, toList_ofList, countP_reverse, hdrop, countP_reverse, hdrop, ink]

theorem trimSpace_ne_empty (hmem : c ∈ s.toList) (hc : isSpace c = false) : trimSpace s ≠ "" := by
  intro h
  have hink : 0 < ink (trimSpace s) := by
    rw [ink_trimSpace]
    exact countP_pos_iff.mpr ⟨c, hmem, by simp [hc]⟩
  rw [h] at hink
  exact absurd hink (by decide)

theorem ink_pos (h : trimSpace s ≠ "") : 0 < ink s := by
  rw [ink, countP_pos_iff]
  by_contra hnone
  have hall : ∀ c ∈ s.toList, isSpace c = true := by simpa using hnone
  refine h (toList_injective ?_)
  simp [trimSpace, dropWhile_eq_nil_iff.mpr hall]

/-- Whether `s` starts with `start`. -/
def startsWith (s start : String) : Bool :=
  start.toList.isPrefixOf s.toList

theorem startsWith_iff {s t : String} : startsWith s t = true ↔ t.toList <+: s.toList :=
  isPrefixOf_iff_prefix

/-- Whether `part` occurs in `s`. -/
def contains (s part : String) : Bool :=
  decide (part.toList <:+: s.toList)

/-- The number of pieces `s` is cut into at the character `c`. -/
def pieces (c : Char) (s : String) : ℕ :=
  s.toList.count c + 1

/-- Replaces every occurrence of `old` by `new`. -/
def replaceAll (s old new : String) : String :=
  String.ofList (Replace.replaceAll old.toList new.toList s.toList)

theorem replaceAll_ne_empty {new : String} (hs : s ≠ "") (hnew : new ≠ "") (old : String) :
    replaceAll s old new ≠ "" := by
  intro h
  have hnil := congrArg toList h
  rw [replaceAll, toList_ofList] at hnil
  exact Replace.replaceAll_ne_nil old.toList (fun h => hnew (toList_injective h))
    (fun h => hs (toList_injective h)) hnil

/-- The pieces of `s` between its line breaks. -/
def lines (s : String) : List String :=
  (s.toList.splitOn '\n').map String.ofList

/-- The pieces of `s` between the characters that are separators. -/
def split (sep : Char → Bool) (s : String) : List String :=
  (s.toList.splitOnP sep).map String.ofList

theorem mem_split (sep : Char → Bool) (hc : c ∈ s.toList)
    (hsep : sep c = false) : ∃ piece ∈ split sep s, c ∈ piece.toList := by
  suffices hlist : ∀ xs : List Char, c ∈ xs → ∃ piece ∈ xs.splitOnP sep, c ∈ piece by
    obtain ⟨piece, hpiece, hmem⟩ := hlist s.toList hc
    exact ⟨ofList piece, mem_map_of_mem hpiece, by simpa using hmem⟩
  intro xs
  induction xs with
  | nil => simp
  | cons x xs ih =>
    intro hmem
    rw [splitOnP_cons_eq_if_modifyHead]
    split
    case isTrue hx =>
      rcases mem_cons.mp hmem with rfl | hmem
      · simp [hsep] at hx
      obtain ⟨piece, hpiece, hin⟩ := ih hmem
      exact ⟨piece, mem_cons_of_mem _ hpiece, hin⟩
    case isFalse =>
      cases hsplit : xs.splitOnP sep with
      | nil => exact absurd hsplit (splitOnP_ne_nil sep xs)
      | cons =>
        rw [modifyHead_cons]
        rcases mem_cons.mp hmem with rfl | hmem
        · exact ⟨_, mem_cons_self, mem_cons_self⟩
        obtain ⟨piece, hpiece, hin⟩ := ih hmem
        rw [hsplit] at hpiece
        rcases mem_cons.mp hpiece with rfl | hpiece
        · exact ⟨_, mem_cons_self, mem_cons_of_mem _ hin⟩
        · exact ⟨piece, mem_cons_of_mem _ hpiece, hin⟩

theorem split_intercalate {l : List String} (h : ∀ s ∈ l, c ∉ s.toList)
    (hl : l ≠ []) : split (· == c) ((singleton c).intercalate l) = l := by
  have hlist : splitOn c ([c].intercalate (l.map toList)) = l.map toList :=
    splitOn_intercalate c (by simpa using h) (by simpa)
  rw [split, String.toList_intercalate, String.toList_singleton]
  simpa [splitOn, Function.comp_def] using congrArg (map ofList) hlist

theorem split_of_not_mem (h : c ∉ s.toList) : split (· == c) s = [s] := by
  simpa using split_intercalate (l := [s]) (by simpa using h) (by simp)

theorem split_append {t : String} (hs : c ∉ s.toList) (ht : c ∉ t.toList) :
    split (· == c) (s ++ singleton c ++ t) = [s, t] := by
  simpa using split_intercalate (l := [s, t]) (by simp [hs, ht]) (by simp)

/-- What comes before and after the first place where `sep` begins. -/
def cutList (sep : List Char) : List Char → Option (List Char × List Char)
  | [] => none
  | c :: text =>
    if sep <+: c :: text then some ([], (c :: text).drop sep.length)
    else (cutList sep text).map fun cut => (c :: cut.1, cut.2)

/-- Cuts `s` at the first occurrence of a separator that is not empty. -/
def cut (s sep : String) : Option (String × String) :=
  (cutList sep.toList s.toList).map fun cut => (String.ofList cut.1, String.ofList cut.2)

end Text

import Formicary.Library.Scanner
import Formicary.Model.TraceBuffer

/-! # The log of a task

Up to its limit the buffer is a scanner that replaces the secrets by the mask. -/

namespace Formicary.Trace

open Buffer Scanner List
open String (utf8EncodeChar)

/-- No secret occurs in the log, whatever the limit, the bytes written and the way they are cut into
chunks. -/
def Masks (tree : MaskTree) : Prop :=
  ∀ (limit : ℤ) (chunks : List (List UInt8)),
    ∀ s ∈ tree.values, ¬ s <:+: (((new.setMasked tree).setLimit limit).process chunks).log

/-- The secrets are separable, and none occurs in the message for an exceeded limit. -/
structure Maskable (secrets : List (List Char)) : Prop where
  separable : Scanner.Separable secrets
  message : ∀ limit : ℕ, ∀ s ∈ secrets, ¬ s <:+: limitExceededMessage limit

section Rune

variable {tree : MaskTree} {b : Buffer}

theorem byteLength_append (xs ys : List Char) :
    byteLength (xs ++ ys) = byteLength xs + byteLength ys := by
  simp [byteLength]

theorem advanceLogUnsafe_eq (hb : b.maskTree = some tree ∨ b.maskTree = none ∧ tree.values = [])
    (σ : Scanner.State Char) (r : Char)
    (hlog : b.log = σ.text) (hrest : b.advanceBuffer = σ.rest ++ [r]) :
    (advanceLogUnsafe b).log = (push tree.values maskedText σ r).text ∧
      (advanceLogUnsafe b).advanceBuffer = (push tree.values maskedText σ r).rest := by
  unfold advanceLogUnsafe push
  rcases hb with hb | ⟨hb, hvals⟩
  swap
  · simp [hb, hvals, Scanner.Live, advanceAllUnsafe, hlog, hrest]
  simp only [hb, hrest]
  have hmem := tree.mem_search (σ.rest ++ [r])
  have hnodup := tree.nodup_search (σ.rest ++ [r])
  generalize tree.search (σ.rest ++ [r]) = results at hmem hnodup
  match results with
  | [] =>
    have hnone : ∀ s ∈ tree.values, ¬ σ.rest ++ [r] <+: s := by
      intro s hs hp
      simpa using (hmem s).mpr ⟨hs, hp⟩
    have hlive : ¬ Scanner.Live tree.values (σ.rest ++ [r]) :=
      fun ⟨s, hs, hp, _⟩ => hnone s hs hp
    have hword : σ.rest ++ [r] ∉ tree.values := fun hw => hnone _ hw (prefix_refl _)
    simp [advanceAllUnsafe, hlive, hword, hlog, hrest]
  | [s] =>
    by_cases hs : s = σ.rest ++ [r]
    · have hword : σ.rest ++ [r] ∈ tree.values := ((hmem s).mp (by simp)).1 |> (hs ▸ ·)
      have hlive : ¬ Scanner.Live tree.values (σ.rest ++ [r]) := by
        rintro ⟨t, ht, hp, hne⟩
        have htm := (hmem t).mpr ⟨ht, hp⟩
        exact hne (by rw [mem_singleton.mp htm, hs])
      simp [advanceAllUnsafe, hlive, hword, hlog, hs]
    · have hlive : Scanner.Live tree.values (σ.rest ++ [r]) := by
        obtain ⟨hv, hp⟩ := (hmem s).mp (by simp)
        exact ⟨s, hv, hp, Ne.symm hs⟩
      simp [hlive, hlog, hrest, hs]
  | s :: t :: results =>
    have hlive : Scanner.Live tree.values (σ.rest ++ [r]) := by
      by_cases hs : s = σ.rest ++ [r]
      · have hne : t ≠ s := by
          rintro rfl
          simp at hnodup
        obtain ⟨hv, hp⟩ := (hmem t).mp (by simp)
        exact ⟨t, hv, hp, fun he => hne (by rw [← he, hs])⟩
      · obtain ⟨hv, hp⟩ := (hmem s).mp (by simp)
        exact ⟨s, hv, hp, Ne.symm hs⟩
    simp [hlive, hlog, hrest]

theorem advanceLogUnsafe_frame (hsize : b.logSize = byteLength b.log) :
    (advanceLogUnsafe b).maskTree = b.maskTree ∧ (advanceLogUnsafe b).bytesLimit = b.bytesLimit ∧
      (advanceLogUnsafe b).logSize = byteLength (advanceLogUnsafe b).log := by
  have hall : ∀ text, (advanceAllUnsafe { b with advanceBuffer := text }).maskTree = b.maskTree ∧
      (advanceAllUnsafe { b with advanceBuffer := text }).bytesLimit = b.bytesLimit ∧
      (advanceAllUnsafe { b with advanceBuffer := text }).logSize =
        byteLength (advanceAllUnsafe { b with advanceBuffer := text }).log := by
    simp [advanceAllUnsafe, byteLength_append, hsize]
  unfold advanceLogUnsafe
  split
  · exact hall b.advanceBuffer
  dsimp only
  split_ifs
  · exact hall b.advanceBuffer
  · exact hall maskedText
  · exact ⟨rfl, rfl, hsize⟩

/-- The buffer is where the scanner is, and within its limit. -/
structure Follows (tree : MaskTree) (limit : ℤ) (b : Buffer) (σ : Scanner.State Char) : Prop where
  maskTree : b.maskTree = some tree ∨ b.maskTree = none ∧ tree.values = []
  bound : b.bytesLimit = limit
  log : b.log = σ.text
  rest : b.advanceBuffer = σ.rest
  size : b.logSize = byteLength b.log
  within : (b.logSize : ℤ) ≤ limit

/-- The buffer has stopped. -/
structure Stopped (limit : ℤ) (b : Buffer) (text : List Char) : Prop where
  bound : b.bytesLimit = limit
  log : b.log = text
  rest : b.advanceBuffer = []
  beyond : limit < b.logSize

variable {limit : ℤ} {σ : Scanner.State Char} {text : List Char}

theorem Stopped.step (h : Stopped limit b text) (r : Char) :
    Stopped limit (writeRune b r) text := by
  have hover : b.logSize > b.bytesLimit := by rw [h.bound]; exact h.beyond
  rw [Buffer.writeRune, if_pos hover]
  exact h

theorem Follows.step (h : Follows tree limit b σ) (r : Char) :
    ((byteLength (push tree.values maskedText σ r).text : ℤ) ≤ limit →
        Follows tree limit (writeRune b r) (push tree.values maskedText σ r)) ∧
      (limit < byteLength (push tree.values maskedText σ r).text → Stopped limit (writeRune b r)
          ((push tree.values maskedText σ r).text ++ limitExceededMessage limit)) := by
  have hwithin : ¬ b.logSize > b.bytesLimit := by
    have hle := h.within
    rw [h.bound]
    omega
  have hrest : b.advanceBuffer ++ [r] = σ.rest ++ [r] := by rw [h.rest]
  unfold writeRune
  rw [if_neg hwithin]
  obtain ⟨hlog, hheld⟩ := advanceLogUnsafe_eq
    (b := { b with advanceBuffer := b.advanceBuffer ++ [r] }) h.maskTree σ r h.log hrest
  obtain ⟨htree, hlimit, hsize⟩ :=
    advanceLogUnsafe_frame (b := { b with advanceBuffer := b.advanceBuffer ++ [r] }) h.size
  generalize advanceLogUnsafe { b with advanceBuffer := b.advanceBuffer ++ [r] } = b' at *
  have hmask := h.maskTree
  rw [← htree] at hmask
  rw [h.bound] at hlimit
  dsimp only
  rw [hlimit]
  constructor
  · intro hle
    have hle' : (b'.logSize : ℤ) ≤ limit := by rwa [hsize, hlog]
    rw [if_pos hle']
    exact ⟨hmask, hlimit, hlog, hheld, hsize, hle'⟩
  · intro hlt
    have hlt' : limit < b'.logSize := by rwa [hsize, hlog]
    rw [if_neg (by omega)]
    refine ⟨rfl, by simp [advanceAllUnsafe, hlog], rfl, ?_⟩
    simp only [advanceAllUnsafe]
    push_cast
    omega

end Rune

section Stream

variable {tree : MaskTree} {limit : ℤ} {b : Buffer} {σ : Scanner.State Char}

theorem text_le_scan (runes : List Char) :
    byteLength σ.text ≤ byteLength (scan tree.values maskedText σ runes).text := by
  induction runes generalizing σ with
  | nil => exact le_rfl
  | cons r runes ih =>
    refine le_trans ?_ ih
    unfold push
    split_ifs <;> simp [byteLength_append]

theorem Stopped.foldl {text : List Char} (h : Stopped limit b text) (runes : List Char) :
    Stopped limit (runes.foldl writeRune b) text := by
  induction runes generalizing b with
  | nil => exact h
  | cons r runes ih => exact ih (h.step r)

theorem Follows.foldl (h : Follows tree limit b σ) (runes : List Char) :
    ((byteLength (scan tree.values maskedText σ runes).text : ℤ) ≤ limit ∧
      Follows tree limit (runes.foldl writeRune b) (scan tree.values maskedText σ runes)) ∨
    (limit < byteLength (scan tree.values maskedText σ runes).text ∧
      ∃ read, Stopped limit (runes.foldl writeRune b)
        ((scan tree.values maskedText σ read).text ++ limitExceededMessage limit)) := by
  induction runes generalizing b σ with
  | nil => exact .inl ⟨by have hle := h.within; rwa [h.size, h.log] at hle, h⟩
  | cons r runes ih =>
    obtain ⟨hfol, hstops⟩ := h.step r
    by_cases hle : (byteLength (push tree.values maskedText σ r).text : ℤ) ≤ limit
    · rcases ih (hfol hle) with hend | ⟨hlt, read, hstop⟩
      · exact .inl hend
      · exact .inr ⟨hlt, r :: read, hstop⟩
    have hlt := Int.not_le.mp hle
    refine .inr ⟨?_, [r], (hstops hlt).foldl runes⟩
    have hgrows : byteLength (push tree.values maskedText σ r).text ≤
      byteLength (scan tree.values maskedText σ (r :: runes)).text :=
        text_le_scan runes
    omega

theorem follows_new (tree : MaskTree) (hlimit : 0 ≤ limit) :
    Follows tree limit ((new.setMasked tree).setLimit limit) ⟨[], []⟩ := by
  unfold setMasked
  split
  · next hnil => exact ⟨.inr ⟨rfl, List.length_eq_zero_iff.mp hnil⟩, rfl, rfl, rfl, rfl, hlimit⟩
  · exact ⟨.inl rfl, rfl, rfl, rfl, rfl, hlimit⟩

theorem process_log (tree : MaskTree) (hlimit : 0 ≤ limit) (chunks : List (List UInt8)) :
    let scan := scan tree.values maskedText ⟨[], []⟩
    let runes := readRunes chunks.flatten
    let log := (((new.setMasked tree).setLimit limit).process chunks).log
    ((byteLength (scan runes).text : ℤ) ≤ limit ∧ log = (scan runes).finish) ∨
      (limit < byteLength (scan runes).text ∧
        ∃ read, log = (scan read).text ++ limitExceededMessage limit) := by
  intro scan runes log
  rcases (follows_new tree hlimit).foldl runes with ⟨hle, h⟩ | ⟨hlt, read, h⟩
  · exact .inl ⟨hle, by simp [log, process, advanceAllUnsafe, runes, h.log, h.rest, scan,
      Scanner.State.finish]⟩
  · exact .inr ⟨hlt, read, by simp [log, process, advanceAllUnsafe, runes, h.log, h.rest, scan]⟩

theorem process_log_of_neg (hlimit : limit < 0) (chunks : List (List UInt8)) :
    (((new.setMasked tree).setLimit limit).process chunks).log = [] := by
  have hstart : Stopped limit ((new.setMasked tree).setLimit limit) [] := by
    unfold setMasked
    split <;> exact ⟨rfl, rfl, rfl, by simpa [setLimit, new] using hlimit⟩
  have h := hstart.foldl (readRunes chunks.flatten)
  simp [process, advanceAllUnsafe, h.log, h.rest]

end Stream

theorem readRune_encode (r : Char) (bytes : List UInt8) :
    readRune (utf8EncodeChar r ++ bytes) = some (r, bytes) := by
  have hdecode : (utf8EncodeChar r ++ bytes).toByteArray.utf8DecodeChar? 0 = some r := by
    rw [toByteArray_append]
    exact ByteArray.utf8DecodeChar?_utf8EncodeChar_append
  have hdrop : (utf8EncodeChar r ++ bytes).drop r.utf8Size = bytes := by
    rw [← String.length_utf8EncodeChar, drop_left]
  unfold readRune
  split
  · next hnil => simp [String.utf8EncodeChar_ne_nil] at hnil
  · simp only [hdecode, hdrop]

theorem readRunes_encode (runes : List Char) :
    readRunes (runes.flatMap utf8EncodeChar) = runes := by
  have hgo : ∀ n, (runes.flatMap utf8EncodeChar).length ≤ n →
      readRunes.go n (runes.flatMap utf8EncodeChar) = runes := by
    induction runes with
    | nil =>
      intro n _
      cases n <;> rfl
    | cons r runes ih =>
      intro n hn
      have hpos := r.utf8Size_pos
      simp only [flatMap_cons, length_append, String.length_utf8EncodeChar] at hn
      match n with
      | 0 => omega
      | n + 1 =>
        rw [flatMap_cons, readRunes.go, readRune_encode]
        dsimp only
        rw [ih n (by omega)]
  exact hgo _ le_rfl

variable {tree : MaskTree} (hmask : ∀ s ∈ tree.values, ∀ a ∈ s, a ∉ maskedText)
include hmask

theorem masks_of_maskable (hne : ∀ s ∈ tree.values, s ≠ []) (h : Maskable tree.values) :
    Masks tree := by
  intro limit chunks s hs
  by_cases hlimit : 0 ≤ limit
  · have hinv := fun runes => inv_scan h.separable hne hmask (inv_empty hne) runes
    rcases process_log tree hlimit chunks with ⟨-, hlog⟩ | ⟨-, read, hlog⟩
    · rw [hlog]
      exact (hinv _).clean_finish h.separable hne s hs
    rw [hlog]
    refine (hinv read).clean.append (hinv read).closed (fun t ht => ?_) s hs
    have hmsg := h.message limit.toNat t ht.1
    rwa [Int.toNat_of_nonneg hlimit] at hmsg
  · rw [process_log_of_neg (Int.not_le.mp hlimit), infix_nil]
    exact hne s hs

theorem scan_replicate (n : ℕ) :
    scan tree.values maskedText ⟨[], []⟩ (replicate n '[') = ⟨replicate n '[', []⟩ := by
  have hbracket : ∀ s ∈ tree.values, '[' ∉ s := fun s hs ha => hmask s hs _ ha (by decide)
  induction n with
  | zero => rfl
  | succ n ih =>
    rw [replicate_succ', scan_append, ih]
    have hlive : ¬ Scanner.Live tree.values ['['] :=
      fun ⟨s, hs, hp, _⟩ => hbracket s hs (hp.subset (by simp))
    have hword : ['['] ∉ tree.values := fun hw => hbracket _ hw (by simp)
    simp [scan, push, hlive, hword]

theorem maskable_of_masks (h : Masks tree) : Maskable tree.values := by
  constructor
  · refine separable_of_clean maskedText fun runes s hs => ?_
    have hlog := h (byteLength (scan tree.values maskedText ⟨[], []⟩ runes).text)
      [runes.flatMap utf8EncodeChar] s hs
    have hcases := process_log tree (Int.natCast_nonneg
      (byteLength (scan tree.values maskedText ⟨[], []⟩ runes).text))
      [runes.flatMap utf8EncodeChar]
    simp only [flatten_cons, flatten_nil, append_nil, readRunes_encode] at hcases
    rcases hcases with ⟨-, hfin⟩ | ⟨hlt, -⟩
    · rwa [hfin] at hlog
    · exact absurd hlt (Int.lt_irrefl _)
  · intro limit s hs hin
    have hlog := h limit [(replicate (limit + 1) '[').flatMap utf8EncodeChar] s hs
    have hcases := process_log tree (Int.natCast_nonneg limit)
      [(replicate (limit + 1) '[').flatMap utf8EncodeChar]
    simp only [flatten_cons, flatten_nil, append_nil, readRunes_encode,
      scan_replicate hmask] at hcases
    have hlen : byteLength (replicate (limit + 1) '[') = limit + 1 := by
      simp [byteLength, show Char.utf8Size '[' = 1 by decide]
    rcases hcases with ⟨hle, -⟩ | ⟨-, read, hread⟩
    · omega
    rw [hread] at hlog
    exact hlog (infix_append_of_infix_right hin)

omit hmask

/-- Secrets that share no letter with the mask stay out of the log exactly if they are maskable. -/
theorem masks_iff_maskable (tree : MaskTree) (hne : ∀ s ∈ tree.values, s ≠ [])
    (hmask : ∀ s ∈ tree.values, ∀ a ∈ s, a ∉ maskedText) : Masks tree ↔ Maskable tree.values :=
  ⟨maskable_of_masks hmask, masks_of_maskable hmask hne⟩

def MaskTree.ofList (values : List (List Char)) : MaskTree where
  values := values
  search rest := values.dedup.filter fun s => rest.isPrefixOf s
  mem_search rest s := by simp [List.isPrefixOf_iff_prefix]
  nodup_search _ := (List.nodup_dedup values).filter _

theorem not_mem_limitExceededMessage (limit : ℕ) : 'q' ∉ limitExceededMessage limit := by
  have hdig : 'q' ∉ (toString (limit : ℤ)).toList := by
    have hstring : (toString (limit : ℤ)).toList = Nat.toDigits 10 limit := by
      show (Nat.repr limit).toList = _
      simp [Nat.repr]
    rw [hstring]
    intro h
    exact absurd (Nat.isDigit_of_mem_toDigits (by decide) (by decide) h) (by decide)
  simp only [limitExceededMessage, String.toList_append, mem_append, not_or]
  exact ⟨⟨⟨⟨⟨⟨by decide, by decide⟩, by decide⟩, hdig⟩, by decide⟩, by decide⟩, by decide⟩

theorem separable_repeated_letter : Scanner.Separable [['q', 'q']] := by
  have hlive : ∀ p, Scanner.Live [['q', 'q']] p → p = [] ∨ p = ['q'] := by
    rintro p ⟨t, ht, hp, hne⟩
    obtain rfl := mem_singleton.mp ht
    have hmem := (mem_inits p _).mpr hp
    simpa [hne] using hmem
  constructor
  · intro s hs p hp
    obtain rfl := mem_singleton.mp hs
    rcases hlive p hp with rfl | rfl <;> decide
  · intro s hs x u v c hx hp hsplit
    obtain rfl := mem_singleton.mp hs.1
    rcases hlive _ hp with h | h
    · simp [hx] at h
    rcases append_eq_singleton_iff.mp h with ⟨rfl, -⟩ | ⟨rfl, rfl⟩
    · exact absurd rfl hx
    simp only [nil_append, cons.injEq] at hsplit
    simp [← hsplit.1]

theorem not_mem_maskedText_of_all {tree : MaskTree}
    (h : (tree.values.all fun s => s.all fun a => !maskedText.contains a) = true) :
    ∀ s ∈ tree.values, ∀ a ∈ s, a ∉ maskedText := by
  simpa using h

/-- A secret that repeats one letter is masked. -/
theorem masks_repeated_letter : Masks (.ofList [['q', 'q']]) := by
  refine (masks_iff_maskable (.ofList [['q', 'q']]) (by decide)
    (not_mem_maskedText_of_all (by decide))).mpr
    ⟨separable_repeated_letter, fun limit s hs hin => ?_⟩
  rw [mem_singleton.mp hs] at hin
  exact not_mem_limitExceededMessage limit (hin.subset (by simp))

/-- A secret that starts inside a failed candidate reaches the log. -/
theorem secret_in_log : ¬ ∀ tree : MaskTree, (∀ s ∈ tree.values, s ≠ []) →
      (∀ s ∈ tree.values, ∀ a ∈ s, a ∉ maskedText) → Masks tree := by
  intro h
  refine h (.ofList ["ab".toList]) (by decide) (not_mem_maskedText_of_all (by decide))
    defaultBytesLimit [[97, 97, 98]] "ab".toList (by decide) ?_
  exact ⟨['a'], [], by decide⟩

/-! ## What the log keeps of the output -/

def Fed (b : Buffer) : Prop :=
  b.fed.flatten ++ b.lineBuffer = b.log

theorem Fed.advanceAllUnsafe {b : Buffer} (h : Fed b) (text : List Char) :
    Fed (advanceAllUnsafe { b with advanceBuffer := text }) := by
  unfold Fed at h ⊢
  simp only [Buffer.advanceAllUnsafe]
  split <;> simp [← h]

theorem Fed.writeRune {b : Buffer} (h : Fed b) (r : Char) : Fed (writeRune b r) := by
  have hlog : Fed (advanceLogUnsafe { b with advanceBuffer := b.advanceBuffer ++ [r] }) := by
    unfold advanceLogUnsafe
    dsimp only
    split
    · exact h.advanceAllUnsafe _
    split_ifs
    · exact h.advanceAllUnsafe _
    · exact h.advanceAllUnsafe _
    · exact h
  unfold Buffer.writeRune
  split
  · exact h
  dsimp only
  split
  · exact hlog
  · exact hlog.advanceAllUnsafe _

theorem fed_process {b : Buffer} (h : Fed b) (chunks : List (List UInt8)) :
    Fed (b.process chunks) := by
  have hfold : ∀ runes : List Char, Fed (runes.foldl Buffer.writeRune b) := by
    intro runes
    induction runes generalizing b with
    | nil => exact h
    | cons r runes ih => exact ih (h.writeRune r)
  exact (hfold _).advanceAllUnsafe _

/-- What a write makes of the log: the write that exceeds the limit is the last one, and the message
follows it. -/
def record (limit : ℤ) (log written : List Char) : List Char :=
  if limit < byteLength log then log
  else if byteLength (log ++ written) ≤ limit then log ++ written
  else log ++ written ++ limitExceededMessage limit

/-- The log is the output, in which some disjoint occurrences of secrets are masked, written piece
by piece up to the limit. -/
def Transcribes (tree : MaskTree) (limit : ℤ) (output log : List Char) : Prop :=
  ∃ pieces : List (List Char × List Char),
    (∀ p ∈ pieces, Piece tree.values maskedText p.1 p.2) ∧ pieces.flatMap Prod.fst = output ∧
      (pieces.map Prod.snd).foldl (record limit) [] = log

variable {tree : MaskTree} {limit : ℤ} {b : Buffer} {runes : List Char}

theorem Transcribes.append {output log w v : List Char} (h : Transcribes tree limit output log)
    (hw : Piece tree.values maskedText w v) :
    Transcribes tree limit (output ++ w) (record limit log v) := by
  obtain ⟨pieces, hpieces, rfl, rfl⟩ := h
  refine ⟨pieces ++ [(w, v)], ?_, by simp, by simp⟩
  exact forall_mem_append.mpr ⟨hpieces, forall_mem_singleton.mpr hw⟩

theorem Transcribes.flush {output log rest : List Char} (h : Transcribes tree limit output log)
    (hheld : rest = [] ∨ Live tree.values rest) :
    Transcribes tree limit (output ++ rest) (record limit log rest) := by
  rcases eq_nil_or_concat' rest with rfl | ⟨p, r, rfl⟩
  · have hsame : record limit log [] = log := by
      unfold record
      split_ifs <;> simp_all
    simpa [hsame] using h
  · exact h.append (.kept (.inr (hheld.resolve_left (by simp)).init) r)

/-- A log that is written is within the limit, or the message follows what exceeds it. -/
theorem foldl_record (hlimit : 0 ≤ limit) (writes : List (List Char)) :
    (byteLength (writes.foldl (record limit) []) : ℤ) ≤ limit ∨
      ∃ log, writes.foldl (record limit) [] = log ++ limitExceededMessage limit ∧
        limit < byteLength log := by
  induction writes using reverseRecOn with
  | nil => exact .inl hlimit
  | append_singleton writes written ih =>
    rw [foldl_append, foldl_cons, foldl_nil, record]
    split_ifs with hover hle
    · exact ih
    · exact .inl hle
    · exact .inr ⟨_, rfl, Int.not_le.mp hle⟩

/-- All but the letters that are held back is in the log. -/
def Transcribed (tree : MaskTree) (limit : ℤ) (runes : List Char) (b : Buffer) : Prop :=
  let σ := scan tree.values maskedText ⟨[], []⟩ runes
  ∃ output, output ++ σ.rest = runes ∧ (σ.rest = [] ∨ Live tree.values σ.rest) ∧
    Transcribes tree limit output b.log ∧
      (Follows tree limit b σ ∨ Stopped limit b b.log ∧ limit < byteLength b.log)

theorem Transcribed.writeRune (h : Transcribed tree limit runes b) (r : Char) :
    Transcribed tree limit (runes ++ [r]) (writeRune b r) := by
  obtain ⟨output, hruns, hheld, hlog, hstate⟩ := h
  have hpush := push_cases maskedText hheld r
  have hscan : scan tree.values maskedText ⟨[], []⟩ (runes ++ [r]) =
    push tree.values maskedText (scan tree.values maskedText ⟨[], []⟩ runes) r := scan_append ..
  simp only [Transcribed, hscan]
  generalize scan tree.values maskedText ⟨[], []⟩ runes = σ at *
  rcases hstate with hfol | ⟨hstop, hover⟩
  · obtain ⟨hgoes, hstops⟩ := hfol.step r
    have hwithin : ¬ limit < byteLength b.log := by
      have hle := hfol.within
      rw [hfol.size] at hle
      omega
    rcases hpush with ⟨hlive, heq⟩ | ⟨w, hw, heq⟩
    · rw [heq, ← hfol.log] at hgoes
      have hnext := hgoes (by omega)
      rw [heq, ← hfol.log]
      exact ⟨output, by simp [← hruns], .inr hlive, hnext.log ▸ hlog, .inl hnext⟩
    rw [heq, ← hfol.log] at hgoes hstops
    have hlog' := hlog.append hw
    rw [heq, ← hfol.log]
    refine ⟨output ++ (σ.rest ++ [r]), by simp [← hruns], .inl rfl, ?_⟩
    rw [record, if_neg hwithin] at hlog'
    by_cases hle : (byteLength (b.log ++ w) : ℤ) ≤ limit
    · rw [if_pos hle] at hlog'
      exact ⟨(hgoes hle).log ▸ hlog', .inl (hgoes hle)⟩
    · rw [if_neg hle] at hlog'
      have hlt := Int.not_le.mp hle
      have hstop := hstops hlt
      rw [hstop.log]
      refine ⟨hlog', .inr ⟨hstop, Int.lt_of_lt_of_le hlt ?_⟩⟩
      rw [byteLength_append (b.log ++ w)]
      omega
  · have hstop' := hstop.step r
    rw [hstop'.log]
    rcases hpush with ⟨hlive, heq⟩ | ⟨w, hw, heq⟩
    · rw [heq]
      exact ⟨output, by simp [← hruns], .inr hlive, hlog, .inr ⟨hstop', hover⟩⟩
    · have hlog' := hlog.append hw
      rw [record, if_pos hover] at hlog'
      rw [heq]
      exact ⟨output ++ (σ.rest ++ [r]), by simp [← hruns], .inl rfl, hlog', .inr ⟨hstop', hover⟩⟩

theorem transcribed_foldl (tree : MaskTree) (hlimit : 0 ≤ limit) (runes : List Char) :
    Transcribed tree limit runes
      (runes.foldl Buffer.writeRune ((new.setMasked tree).setLimit limit)) := by
  induction runes using reverseRecOn with
  | nil =>
    have hnew := follows_new tree hlimit
    exact ⟨[], rfl, .inl rfl, ⟨[], by simp, rfl, hnew.log.symm⟩, .inl hnew⟩
  | append_singleton runes r ih =>
    rw [foldl_append]
    exact ih.writeRune r

/-- If no secret contains the message, the log of an output is a transcript of it exactly if the
letters held back in the end do not take it over its limit. The lines passed on and the unfinished
line make up the log. -/
theorem process_transcribes_iff (hlimit : 0 ≤ limit)
    (hmessage : ∀ s ∈ tree.values, ¬ limitExceededMessage limit <:+: s)
    (runes : List Char) (chunks : List (List UInt8))
    (hchunks : chunks.flatten = runes.flatMap utf8EncodeChar) :
    let σ := scan tree.values maskedText ⟨[], []⟩ runes
    let b := ((new.setMasked tree).setLimit limit).process chunks
    (Transcribes tree limit runes b.log ↔ ((byteLength σ.text : ℤ) ≤ limit →
      (byteLength (σ.text ++ σ.rest) : ℤ) ≤ limit)) ∧ Fed b := by
  intro σ b
  refine ⟨?_, fed_process (by unfold setMasked; split <;> rfl) chunks⟩
  simp only [b, process, hchunks, readRunes_encode]
  obtain ⟨output, hruns, hheld, hlog, hstate⟩ := transcribed_foldl tree hlimit runes
  have hall := hlog.flush hheld
  rw [hruns] at hall
  have hends := (follows_new tree hlimit).foldl runes
  generalize foldl writeRune ((new.setMasked tree).setLimit limit) runes = b at *
  rcases hstate with hfol | ⟨hstop, hover⟩
  · have hwithin := hfol.within
    rw [hfol.size] at hwithin
    rw [record, if_neg (by omega), hfol.log] at hall
    rw [hfol.log] at hwithin
    simp only [advanceAllUnsafe, hfol.rest, hfol.log]
    refine ⟨fun htrans _ => ?_, fun hle => ?_⟩
    · -- otherwise the message ends the letters that are held back
      obtain ⟨pieces, -, -, hwritten⟩ := htrans
      rcases foldl_record hlimit (pieces.map Prod.snd) with hle | ⟨log, hend, hover⟩
      · rwa [hwritten] at hle
      rw [hwritten] at hend
      rcases append_eq_append_iff.mp hend with ⟨beyond, rfl, hrest⟩ | ⟨beyond, htext, -⟩
      · rcases hheld with hnil | ⟨s, hs, hpre, -⟩
        · simp [append_eq_nil_iff.mp (hrest.symm.trans hnil)] at hover
          omega
        · exact absurd ((hrest ▸ infix_append_right).trans hpre.isInfix) (hmessage s hs)
      · rw [htext, byteLength_append] at hwithin
        omega
    · rwa [if_pos (hle hwithin)] at hall
  · rw [record, if_pos hover] at hall
    rcases hends with ⟨-, hfol⟩ | ⟨hlt, -⟩
    · exact absurd hstop.beyond (by rw [Int.not_lt]; exact hfol.within)
    · refine iff_of_true ?_ fun hle => absurd hle (Int.not_le.mpr hlt)
      simpa [advanceAllUnsafe, hstop.rest] using hall

/-- The mask takes the log over the limit. -/
theorem transcribes_masked : Transcribes (.ofList ["qq".toList]) 4 ['a', 'q', 'q', 'b']
    (((new.setMasked (.ofList ["qq".toList])).setLimit 4).process [[97, 113], [113, 98]]).log :=
  (process_transcribes_iff (by decide) (by decide) ['a', 'q', 'q', 'b'] [[97, 113], [113, 98]]
    (by decide)).1.mpr (by decide)

/-- The letters that are held back for a secret exceed the limit, and no message follows. -/
theorem no_limit_message : ¬ Transcribes (.ofList ["abc".toList]) 1 ['a', 'b']
    (((new.setMasked (.ofList ["abc".toList])).setLimit 1).process [[97, 98]]).log := by
  have hlog : (((new.setMasked (.ofList ["abc".toList])).setLimit 1).process [[97, 98]]).log =
    ['a', 'b'] := by decide
  rw [hlog]
  rintro ⟨pieces, -, -, hwritten⟩
  rcases foldl_record Int.one_nonneg (pieces.map Prod.snd) with hle | ⟨log, hend, -⟩
  · rw [hwritten] at hle
    exact absurd hle (by decide)
  · have hlen := congrArg length (hwritten.symm.trans hend)
    have hmsg : (limitExceededMessage 1).length = 38 := by decide
    simp [hmsg] at hlen

end Formicary.Trace

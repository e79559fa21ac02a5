import Formicary.Model.ErrorCode

/-! # Which error code a failure gets -/

namespace Formicary.ErrorCodeRepository

open List

structure Failure where
  message : String
  platform : String
  command : String
  jobType : String
  taskType : String
  exitCode : ℤ

variable (matchString : String → String → Option Bool) (f : Failure) (ec : ErrorCodeRow)

def Failure.match (codes : List ErrorCodeRow) : Except String ErrorCodeRow :=
  matchErrorCode matchString f.message f.platform f.command f.jobType f.taskType codes

/-- The failure lies in the scopes of the code. -/
def inScope : Bool :=
  (wildOrEmpty ec.platformScope || ec.platformScope == f.platform) &&
    (wildOrEmpty ec.jobType || ec.jobType == f.jobType) &&
    (wildOrEmpty ec.taskTypeScope || ec.taskTypeScope == f.taskType) &&
    (wildOrEmpty ec.commandScope || Text.contains f.command ec.commandScope)

/-- The failure is in scope and its message matches the expression, if there is one. -/
def covers : Bool :=
  inScope f ec && (ec.regex == "" || matchString ec.regex f.message == some true)

def exits : Bool := ec.exitCode == 0 || f.exitCode == ec.exitCode

/-- The failure satisfies the whole definition of the code. -/
def qualifies : Bool := covers matchString f ec && exits f ec

/-- The failure is in scope and its message matches. -/
def accepts : Bool := inScope f ec && matchesMessage matchString ec f.message

variable {matchString f}

theorem match_toOption (codes : List ErrorCodeRow) :
    (f.match matchString codes).toOption = codes.find? (accepts matchString f) := by
  induction codes with
  | nil => rfl
  | cons ec codes ih =>
    have hcons : f.match matchString (ec :: codes) =
        if accepts matchString f ec then .ok ec else f.match matchString codes := by
      simp only [Failure.match, matchErrorCode, accepts, inScope]
      grind
    rw [hcons, find?_cons, ← ih]
    cases accepts matchString f ec <;> rfl

theorem match_eq_find? (hempty : ∀ text, matchString "" text = some true)
    (codes : List ErrorCodeRow) :
    (f.match matchString codes).toOption =
      if f.message = "" then none else codes.find? (covers matchString f) := by
  rw [match_toOption]
  split
  · next hmsg => simp [accepts, matchesMessage, hmsg]
  next hmsg =>
  congr 1
  funext ec
  by_cases hregex : ec.regex = ""
  · simp [accepts, covers, matchesMessage, hmsg, hregex, hempty]
  · simp [accepts, covers, matchesMessage, hmsg, beq_false_of_ne hregex]

theorem find?_and_eq_iff {α : Type*} {p q : α → Bool} (l : List α) :
    l.find? p = l.find? (fun a => p a && q a) ↔ ∀ a ∈ l.find? p, q a = true := by
  induction l with
  | nil => simp
  | cons a l ih =>
    cases hp : p a with
    | false => simpa [find?_cons, hp] using ih
    | true =>
      cases hq : q a with
      | true => simp [hp, hq]
      | false =>
        simp only [find?_cons, hp, hq, Bool.and_false, Option.mem_some_iff, forall_eq',
          Bool.false_eq_true, iff_false]
        intro h
        have hfound := find?_some h.symm
        simp [hq] at hfound

/-- The match is the first code that qualifies exactly if a failure without a message has none, and
the first code whose scopes and expression cover any other failure also fits its exit code. -/
theorem match_eq_first_iff (hempty : ∀ text, matchString "" text = some true)
    (codes : List ErrorCodeRow) :
    (f.match matchString codes).toOption = codes.find? (qualifies matchString f) ↔
      if f.message = "" then ∀ ec ∈ codes, qualifies matchString f ec = false
      else ∀ ec ∈ codes.find? (covers matchString f), exits f ec = true := by
  rw [match_eq_find? hempty]
  split
  · rw [eq_comm, find?_eq_none]
    simp
  · exact find?_and_eq_iff codes

/-- A code for exit code 137 of any command. -/
def killed : ErrorCodeRow where
  errorCode := "ERR_OOM"
  action := .retryJob
  retry := 1
  regex := ""
  exitCode := 137
  jobType := ""
  taskTypeScope := ""
  platformScope := ""
  commandScope := ""

def Failure.exited (exitCode : ℤ) : Failure :=
  ⟨"exited", "linux", "make", "build", "test", exitCode⟩

theorem match_killed : ((Failure.exited 137).match (fun _ _ => some true) [killed]).toOption =
    [killed].find? (qualifies (fun _ _ => some true) (Failure.exited 137)) :=
  (match_eq_first_iff (fun _ => rfl) [killed]).mpr (by decide)

theorem match_of_other_exit : killed.validate = .ok () ∧
    ((Failure.exited 1).match (fun _ _ => some true) [killed]).toOption = some killed ∧
    qualifies (fun _ _ => some true) (Failure.exited 1) killed = false := by
  decide

/-! ## The most specific code -/

/-- Which of its scopes a code restricts, to be compared scope by scope. -/
def restrictions (ec : ErrorCodeRow) : Bool × Bool × Bool × Bool :=
  (!wildOrEmpty ec.platformScope, !wildOrEmpty ec.jobType, !wildOrEmpty ec.taskTypeScope,
    !wildOrEmpty ec.commandScope)

/-- What codes are sorted by, to be compared lexicographically. -/
def lengths (ec : ErrorCodeRow) : List ℕ :=
  [ec.platformScope, ec.jobType, ec.taskTypeScope, ec.commandScope, ec.regex].map (·.utf8ByteSize)

/-- Of the codes of the group that accept the failure, no one with the longest texts restricts less
than another. -/
def LongestRestrictMost (matchString : String → String → Option Bool) (f : Failure)
    (group : List ErrorCodeRow) : Prop :=
  ∀ ec ∈ group, accepts matchString f ec = true →
    (∀ other ∈ group, accepts matchString f other = true → lengths other ≤ lengths ec) →
    ∀ other ∈ group, accepts matchString f other = true → ¬ restrictions ec < restrictions other

/-- The result is a code of the group that accepts the failure, with no other such code that
restricts the same scopes and one more; there is none only if no code accepts the failure. -/
structure MostSpecific (matchString : String → String → Option Bool) (f : Failure)
    (group : List ErrorCodeRow) (result : Option ErrorCodeRow) : Prop where
  mem : ∀ ec ∈ result, ec ∈ group ∧ accepts matchString f ec = true
  most : ∀ ec ∈ result, ∀ other ∈ group, accepts matchString f other = true →
    ¬ restrictions ec < restrictions other
  all : result = none → ∀ ec ∈ group, accepts matchString f ec = false

def Failure.matchCached (matchString : String → String → Option Bool) (f : Failure)
    (mine theirs : List ErrorCodeRow) : Except String ErrorCodeRow :=
  ErrorCodeRepository.matchCached matchString f.message f.platform f.command f.jobType f.taskType
    mine theirs

theorem sortsBefore_eq_false {ec ec' : ErrorCodeRow} :
    sortsBefore ec' ec = false ↔ lengths ec' ≤ lengths ec := by
  rw [← Bool.not_eq_true, ← not_lt, not_iff_not]
  simp only [sortsBefore, longerElse, lengths, map_cons, map_nil, cons_lt_cons_iff]
  grind

theorem getAll_insertionSort {stored rows : List ErrorCodeRow} (h : rows.Perm (stored.take 10000)) :
    GetAll stored (rows.insertionSort fun a b => lengths b ≤ lengths a) := by
  have : IsTrans ErrorCodeRow fun a b => lengths b ≤ lengths a :=
    ⟨fun _ _ _ hab hbc => hbc.trans hab⟩
  have : Std.Total fun a b : ErrorCodeRow => lengths b ≤ lengths a := ⟨fun _ _ => le_total _ _⟩
  exact ⟨(perm_insertionSort _ _).trans h,
    (pairwise_insertionSort _ rows).imp sortsBefore_eq_false.mpr⟩

theorem mostSpecific_iff {stored : List ErrorCodeRow} (hfew : stored.length ≤ 10000) :
    (∀ all, GetAll stored all → MostSpecific matchString f stored
      (all.find? (accepts matchString f))) ↔ LongestRestrictMost matchString f stored := by
  constructor
  · intro h ec hec hacc hlong
    -- a sort may put the code before all others that are no longer
    obtain ⟨before, after, rfl⟩ := append_of_mem hec
    have hperm : (ec :: (before ++ after)).Perm ((before ++ ec :: after).take 10000) := by
      rw [take_of_length_le hfew]
      exact perm_middle.symm
    have hall := getAll_insertionSort hperm
    rw [insertionSort_cons_eq_take_drop] at hall
    refine (h _ hall).most ec (find?_eq_some_iff_append.mpr ⟨hacc, _, _, rfl, ?_⟩)
    intro other hother
    have hlonger : ¬ lengths other ≤ lengths ec := by simpa using mem_takeWhile_imp hother
    have hmem := (takeWhile_sublist _).subset hother
    rw [mem_insertionSort, mem_append] at hmem
    have hin := mem_append.mpr (hmem.imp_right (mem_cons_of_mem ec))
    simpa using mt (hlong other hin) hlonger
  · rintro h all ⟨hperm, hsorted⟩
    rw [take_of_length_le hfew] at hperm
    refine ⟨fun ec hec => ?_, fun ec hec => ?_, fun hnone ec hec => ?_⟩
    · exact ⟨hperm.mem_iff.mp (mem_of_find?_eq_some hec), find?_some hec⟩
    · have hmem := hperm.mem_iff.mp (mem_of_find?_eq_some hec)
      refine h ec hmem (find?_some hec) fun other hother hacc => ?_
      obtain ⟨-, before, after, rfl, hfirst⟩ := find?_eq_some_iff_append.mp hec
      rcases mem_append.mp (hperm.mem_iff.mpr hother) with hin | hin
      · simpa [hacc] using hfirst other hin
      rcases mem_cons.mp hin with rfl | hin
      · exact le_rfl
      · exact sortsBefore_eq_false.mp (rel_of_pairwise_cons (pairwise_append.mp hsorted).2.1 hin)
    · simpa using find?_eq_none.mp hnone ec (hperm.mem_iff.mpr hec)

/-- The codes of the caller if one of them accepts the failure, and the global ones otherwise. -/
def chosen (matchString : String → String → Option Bool) (f : Failure)
    (codes globals : List ErrorCodeRow) : List ErrorCodeRow :=
  if codes.any (accepts matchString f) then codes else globals

/-- If the cached repository has read all of the codes that it chooses from, it returns a most
specific one of them, however they are sorted, exactly if the longest ones restrict the most. -/
theorem matchCached_mostSpecific_iff (matchString : String → String → Option Bool) (f : Failure)
    (codes globals : List ErrorCodeRow)
    (hfew : (chosen matchString f codes globals).length ≤ 10000) :
    (∀ mine theirs, GetAll codes mine → GetAll globals theirs →
      MostSpecific matchString f (chosen matchString f codes globals)
        (f.matchCached matchString mine theirs).toOption) ↔
    LongestRestrictMost matchString f (chosen matchString f codes globals) := by
  have hresult : ∀ mine theirs, (f.matchCached matchString mine theirs).toOption =
      (mine.find? (accepts matchString f)).or (theirs.find? (accepts matchString f)) := by
    intro mine theirs
    rw [← match_toOption, ← match_toOption]
    unfold Failure.matchCached ErrorCodeRepository.matchCached Failure.match
    split <;> simp_all [Except.toOption]
  have hexists : ∀ stored : List ErrorCodeRow, ∃ all, GetAll stored all :=
    fun stored => ⟨_, getAll_insertionSort (.refl _)⟩
  rw [← mostSpecific_iff hfew]
  simp only [hresult]
  unfold chosen at hfew ⊢
  split at hfew
  · next hany =>
    obtain ⟨ec, hec, hacc⟩ := any_eq_true.mp hany
    have hfound : ∀ mine, GetAll codes mine → (mine.find? (accepts matchString f)).isSome := by
      intro mine hmine
      have hmem := hmine.1.mem_iff.mpr (by rwa [take_of_length_le hfew])
      exact find?_isSome.mpr ⟨ec, hmem, hacc⟩
    rw [if_pos hany]
    constructor
    · intro h mine hmine
      obtain ⟨theirs, htheirs⟩ := hexists globals
      simpa [Option.or_of_isSome (hfound mine hmine)] using h mine theirs hmine htheirs
    · intro h mine theirs hmine _
      simpa [Option.or_of_isSome (hfound mine hmine)] using h mine hmine
  · next hany =>
    have hnone : ∀ mine, GetAll codes mine → mine.find? (accepts matchString f) = none := by
      intro mine hmine
      refine find?_eq_none.mpr fun ec hec hacc => hany (any_eq_true.mpr ⟨ec, ?_, hacc⟩)
      exact mem_of_mem_take (hmine.1.mem_iff.mp hec)
    rw [if_neg hany]
    constructor
    · intro h theirs htheirs
      obtain ⟨mine, hmine⟩ := hexists codes
      simpa [hnone mine hmine] using h mine theirs hmine htheirs
    · intro h mine theirs hmine htheirs
      simpa [hnone mine hmine] using h theirs htheirs

/-- A code with the expression that matches everything. -/
def catchAll (platformScope jobType : String) : ErrorCodeRow :=
  { killed with regex := ".*", exitCode := 0, platformScope := platformScope, jobType := jobType }

theorem mostSpecific_build : MostSpecific (fun _ _ => some true) (.exited 1)
    [catchAll "" "", catchAll "" "build"]
    ((Failure.exited 1).matchCached (fun _ _ => some true) [catchAll "" "build", catchAll "" ""]
      [killed]).toOption := by
  have hmine : GetAll [catchAll "" "", catchAll "" "build"]
      [catchAll "" "build", catchAll "" ""] := ⟨by decide, by decide⟩
  have htheirs : GetAll [killed] [killed] := ⟨.refl _, by decide⟩
  refine (matchCached_mostSpecific_iff _ _ [catchAll "" "", catchAll "" "build"] [killed]
    (by decide)).mpr ?_ _ _ hmine htheirs
  intro ec hec _ hlong other hother _ hlt
  rcases mem_pair.mp hec with rfl | rfl
  · have hle := hlong (catchAll "" "build") (mem_pair.mpr (.inr rfl)) (by decide)
    exact absurd hle (by decide)
  · refine absurd hlt (not_lt_of_ge ?_)
    rcases mem_pair.mp hother with rfl | rfl <;> decide

/-- A star for the platform outweighs the type of the job. -/
theorem star_before_job : GetAll [catchAll "" "build", catchAll "*" ""]
      [catchAll "*" "", catchAll "" "build"] ∧
    ¬ MostSpecific (fun _ _ => some true) (.exited 1) [catchAll "" "build", catchAll "*" ""]
      ((Failure.exited 1).matchCached (fun _ _ => some true)
        [catchAll "*" "", catchAll "" "build"] []).toOption := by
  refine ⟨⟨by decide, by decide⟩, fun h => ?_⟩
  refine h.most (catchAll "*" "") rfl (catchAll "" "build") (by decide) (by decide) ?_
  exact lt_of_le_of_ne ⟨by decide, by decide, by decide, by decide⟩ (by decide)

end Formicary.ErrorCodeRepository

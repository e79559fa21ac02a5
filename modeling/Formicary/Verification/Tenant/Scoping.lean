import Formicary.Model.QueryContext

/-! # Tenant scopes

Three mechanisms restrict a caller to the rows of its tenant: the condition that the repositories
add to a query, the same condition as text for statements written by hand, and a test on a row that
is already loaded. -/

namespace Formicary.QueryContext

/-- The columns of a row that say whose it is. -/
structure Owner where
  userID : String
  organizationID : String
  deriving DecidableEq, Repr

inductive Mechanism where
  | addOrgElseUserWhere
  | addOrgUserWhereSQL
  | matchesOwner
  deriving DecidableEq, Repr

variable (qc : QueryContext) (readonly : Bool)

def admits (row : Owner) : Mechanism → Bool
  | .addOrgElseUserWhere => qc.orgElseUserWhere readonly row.userID row.organizationID
  | .addOrgUserWhereSQL =>
    Operand.holds row.userID row.organizationID (qc.addOrgUserWhereSQL readonly)
  | .matchesOwner => qc.matchesOwner row.userID row.organizationID readonly

/-- Administrators are not restricted, and for reading neither are read administrators. -/
def privileged : Bool := qc.isAdmin || (readonly && qc.isReadAdmin)

def owns (user : User) (row : Owner) : Bool :=
  if user.organizationID = "" then row.userID == user.id
  else row.organizationID == user.organizationID

def Consistent : Prop :=
  ∀ row m m', qc.admits readonly row m = qc.admits readonly row m'

/-- Tables that agree on the rows of the caller's tenant look the same to the caller. -/
def Isolated : Prop :=
  ∀ user, qc.user = some user → ∀ (ρ : Type) (owner : ρ → Owner) (rows rows' : List ρ),
    (rows.filter fun r => owns user (owner r)) = (rows'.filter fun r => owns user (owner r)) →
    ∀ m, (rows.filter fun r => qc.admits readonly (owner r) m) =
      rows'.filter fun r => qc.admits readonly (owner r) m

/-- A caller with an organization has it loaded and the context has the column for it; one without
has none loaded, or none that a column is for, and the context has the column for users. -/
def Aligned (user : User) : Prop :=
  if user.organizationID = "" then
    qc.userIDColumn ≠ "" ∧ (user.organization = true → qc.organizationIDColumn = "")
  else user.organization = true ∧ qc.organizationIDColumn ≠ ""

section Restricted

variable {qc readonly} {user : User}

theorem admits_of_privileged (h : qc.privileged readonly = true) (row : Owner) (m : Mechanism) :
    qc.admits readonly row m = true := by
  unfold privileged at h
  cases m with
  | addOrgElseUserWhere => simp [admits, orgElseUserWhere, h]
  | addOrgUserWhereSQL => simp [admits, addOrgUserWhereSQL, h, Operand.holds]
  | matchesOwner =>
    rw [Bool.and_comm] at h
    simp [admits, QueryContext.matchesOwner, h]

variable (h : qc.privileged readonly = false) (huser : qc.user = some user)
include h huser

theorem admits_where (row : Owner) : qc.admits readonly row .addOrgElseUserWhere =
      if user.organizationID ≠ "" ∧ qc.organizationIDColumn ≠ "" then
        row.organizationID == user.organizationID
      else if qc.userIDColumn ≠ "" then row.userID == user.id
      else true := by
  obtain ⟨hadmin, hread⟩ := Bool.or_eq_false_iff.mp h
  by_cases horg : user.organizationID = "" <;> by_cases hcol : qc.organizationIDColumn = "" <;>
    by_cases hucol : qc.userIDColumn = "" <;>
    simp [admits, orgElseUserWhere, userWhere, huser, hadmin, hread, horg, hcol, hucol]

theorem admits_sql (row : Owner) : qc.admits readonly row .addOrgUserWhereSQL =
      if user.organization = true ∧ qc.organizationIDColumn ≠ "" then
        row.organizationID == user.organizationID
      else if qc.userIDColumn ≠ "" then row.userID == user.id
      else true := by
  obtain ⟨hadmin, hread⟩ := Bool.or_eq_false_iff.mp h
  by_cases horg : user.organization = true <;> by_cases hcol : qc.organizationIDColumn = "" <;>
    by_cases hucol : qc.userIDColumn = "" <;>
    simp [admits, addOrgUserWhereSQL, addOrgWhereSQL, addUserWhereSQL, Operand.holds, huser,
      hadmin, hread, horg, hcol, hucol]

theorem admits_matches (row : Owner) : qc.admits readonly row .matchesOwner = owns user row := by
  unfold privileged at h
  rw [Bool.and_comm] at h
  by_cases horg : user.organizationID = "" <;>
    simp [admits, QueryContext.matchesOwner, owns, huser, h, horg, Bool.beq_comm]

end Restricted

section Agreement

variable {qc readonly} {user : User}

theorem admits_of_aligned (h : qc.privileged readonly = false) (huser : qc.user = some user)
    (halign : qc.Aligned user) (row : Owner) (m : Mechanism) :
    qc.admits readonly row m = owns user row := by
  unfold Aligned at halign
  cases m with
  | addOrgElseUserWhere =>
    rw [admits_where h huser, owns]
    split at halign
    · next horg => simp [horg, halign.1]
    · next horg => simp [horg, halign.2]
  | addOrgUserWhereSQL =>
    rw [admits_sql h huser, owns]
    split at halign
    · next horg =>
      have hskip : ¬ (user.organization = true ∧ qc.organizationIDColumn ≠ "") :=
        fun hboth => hboth.2 (halign.2 hboth.1)
      rw [if_neg hskip, if_pos halign.1, if_pos horg]
    · next horg => rw [if_pos halign, if_neg horg]
  | matchesOwner => exact admits_matches h huser row

def ownRow (user : User) : Owner := ⟨user.id, user.organizationID ++ "'"⟩

def orgRow (user : User) : Owner := ⟨user.id ++ "'", user.organizationID⟩

theorem append_quote_ne (s : String) : s ++ "'" ≠ s := by
  intro h
  have hlen := congrArg String.length h
  simp at hlen

theorem append_quote_beq (s : String) : (s ++ "'" == s) = false :=
  beq_eq_false_iff_ne.mpr (append_quote_ne s)

theorem aligned_of_consistent (h : qc.privileged readonly = false) (huser : qc.user = some user)
    (hcons : qc.Consistent readonly) : qc.Aligned user := by
  have hwhere : ∀ row, _ = owns user row := fun row =>
    (hcons row .addOrgElseUserWhere .matchesOwner).trans (admits_matches h huser row)
  have hsql : ∀ row, _ = owns user row := fun row =>
    (hcons row .addOrgUserWhereSQL .matchesOwner).trans (admits_matches h huser row)
  simp only [admits_where h huser] at hwhere
  simp only [admits_sql h huser] at hsql
  have horgRow := hwhere (orgRow user)
  have hownRow := hsql (ownRow user)
  have horgRow' := hsql (orgRow user)
  have hownRow' := hwhere (ownRow user)
  unfold Aligned
  by_cases horg : user.organizationID = ""
  · rw [if_pos horg]
    by_cases hucol : qc.userIDColumn = ""
    · -- the condition for users is missing, so a row of another user is selected
      simp [horg, hucol, owns, orgRow, append_quote_beq] at horgRow
    refine ⟨hucol, fun hload => ?_⟩
    by_contra hcol
    simp [horg, hload, hcol, owns, orgRow, append_quote_beq] at horgRow'
  rw [if_neg horg]
  by_cases hcol : qc.organizationIDColumn = ""
  · by_cases hucol : qc.userIDColumn = "" <;>
      simp [horg, hcol, hucol, owns, ownRow, append_quote_beq] at hownRow'
  refine ⟨?_, hcol⟩
  by_contra hload
  by_cases hucol : qc.userIDColumn = "" <;>
    simp [horg, hload, hucol, owns, ownRow, append_quote_beq] at hownRow

theorem consistent_of_privileged (h : qc.privileged readonly = true) : qc.Consistent readonly :=
  fun row m m' => (admits_of_privileged h row m).trans (admits_of_privileged h row m').symm

theorem isolated_of_aligned (h : qc.privileged readonly = false) (huser : qc.user = some user)
    (halign : qc.Aligned user) : qc.Isolated readonly := by
  intro user' huser' ρ owner rows rows' hrows m
  cases huser.symm.trans huser'
  simp only [admits_of_aligned h huser halign]
  exact hrows

end Agreement

/-- The three mechanisms admit the same rows, and only those of the caller's tenant, exactly for
callers that are not restricted and for those whose parts agree. -/
theorem consistent_isolated_iff_aligned :
    (qc.Consistent readonly ∧ (qc.privileged readonly = false → qc.Isolated readonly)) ↔
      qc.privileged readonly = true ∨ ∃ user, qc.user = some user ∧ qc.Aligned user := by
  constructor
  · rintro ⟨hcons, -⟩
    cases hpriv : qc.privileged readonly with
    | true => exact .inl rfl
    | false =>
      cases huser : qc.user with
      | none => simp [privileged, isAdmin, huser] at hpriv
      | some user =>
        exact .inr ⟨user, rfl, aligned_of_consistent hpriv huser hcons⟩
  · rintro (hpriv | ⟨user, huser, halign⟩)
    · exact ⟨consistent_of_privileged hpriv, fun h => by simp [hpriv] at h⟩
    cases hpriv : qc.privileged readonly with
    | true => exact ⟨consistent_of_privileged hpriv, nofun⟩
    | false =>
      refine ⟨fun row m m' => ?_, fun _ => isolated_of_aligned hpriv huser halign⟩
      rw [admits_of_aligned hpriv huser halign, admits_of_aligned hpriv huser halign]

/-- A member of an organization whose record has not been loaded. -/
def unloaded : QueryContext :=
  newQueryContext (some
    { id := "alice", username := "", organizationID := "acme", organization := false,
      roles := Table.empty })

/-- The condition of the repositories gives them the rows of the organization. The text gives them
only rows under their own name, and these also where they belong to another tenant. -/
theorem not_consistent_unloaded : ¬ unloaded.Consistent true ∧ ¬ unloaded.Isolated true := by
  constructor
  · intro h
    have hrow := h ⟨"bob", "acme"⟩ .addOrgElseUserWhere .addOrgUserWhereSQL
    exact absurd hrow (by decide)
  · intro h
    have hrows := h _ rfl Owner id [⟨"alice", "other"⟩] [] (by decide) .addOrgUserWhereSQL
    exact absurd hrows (by decide)

end Formicary.QueryContext

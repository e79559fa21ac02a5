import Formicary.Model.RoleText

/-! # Rights after storing

Scopes are printed with blanks between them and read back at commas, so that several scopes become
one. -/

namespace Formicary

open Text List Role Roles Table

/-- A name that contains no character that the text of roles uses. -/
def Plain (s : String) : Prop :=
  s ≠ "" ∧ ∀ c ∈ [' ', ',', ';', '[', ']'], c ∉ s.toList

instance (s : String) : Decidable (Plain s) :=
  @instDecidableAnd _ _ _ (decidableBAll _ _)

def Role.Plain (role : Role) : Prop :=
  Formicary.Plain role.roleType ∧ ∀ sc ∈ role.scope, Formicary.Plain sc

instance (role : Role) : Decidable role.Plain :=
  inferInstanceAs (Decidable (_ ∧ _))

def Role.reread (role : Role) : Role :=
  ⟨trimSpace role.roleType, [trimSpace (" ".intercalate role.scope)].filter (· ≠ "")⟩

theorem countP_intercalate {q : Char → Bool} (hq : q ' ' = false) (scope : List String) :
    (" ".intercalate scope).toList.countP q = (scope.map fun sc => sc.toList.countP q).sum := by
  induction scope with
  | nil => simp
  | cons sc scope ih =>
    cases scope with
    | nil => simp
    | cons => simpa [intercalate, intersperse, hq] using ih

variable {role : Role}

theorem Role.Plain.not_mem_scopes (h : role.Plain) {c : Char} (hblank : c ≠ ' ')
    (hc : c ∈ [' ', ',', ';', '[', ']']) : c ∉ (" ".intercalate role.scope).toList := by
  rw [← count_eq_zero, count,
    countP_intercalate (q := (· == c)) (beq_eq_false_iff_ne.mpr hblank.symm)]
  refine List.sum_eq_zero_iff_forall_eq_nat.mpr fun n hn => ?_
  obtain ⟨sc, hsc, rfl⟩ := List.mem_map.mp hn
  exact count_eq_zero.mpr ((h.2 sc hsc).2 c hc)

theorem replaceAll_bracket {s : String}
    (h : ']' ∉ s.toList) : replaceAll (s ++ "]") "]" "" = s := by
  have hlist : ∀ text : List Char, ']' ∉ text →
      Replace.replaceFrom [']'] [] 0 (text ++ [']']) = text := by
    intro text
    induction text with
    | nil => intro _; rfl
    | cons a text ih =>
      intro hmem
      obtain ⟨hne, hmem⟩ := not_or.mp (mem_cons.not.mp hmem)
      rw [cons_append, Replace.replaceFrom, if_neg, ih hmem]
      simp [hne]
  apply String.toList_injective
  simp [replaceAll, Replace.replaceAll, hlist _ h]

theorem unmarshalLine_string (h : role.Plain) : unmarshalLine role.string = some role.reread := by
  have hsplit : split (· == '[') role.string =
      [role.roleType, " ".intercalate role.scope ++ "]"] := by
    refine split_append (h.1.2 '[' (by decide)) ?_
    simpa using h.not_mem_scopes (by decide) (by decide)
  have hcomma : ',' ∉ (" ".intercalate role.scope ++ "]").toList := by
    simpa using h.not_mem_scopes (by decide) (by decide)
  rw [unmarshalLine, hsplit]
  simp [split_of_not_mem hcomma, replaceAll_bracket (h.not_mem_scopes (by decide) (by decide)),
    reread]

theorem unmarshalRoles_marshalRoles {roles : List Role} (h : ∀ role ∈ roles, role.Plain) :
    unmarshalRoles (marshalRoles roles) = roles.map reread := by
  have hlines : ∀ s, unmarshalRoles s = (split (· == ';') s).filterMap unmarshalLine := by
    intro s
    unfold unmarshalRoles
    split
    · next hs =>
      rw [hs]
      rfl
    · rfl
  cases roles with
  | nil => rfl
  | cons role =>
    rw [hlines, marshalRoles, show ";" = String.singleton ';' from rfl, split_intercalate]
    · rw [filterMap_map]
      refine filterMap_eq_map_iff_forall_eq_some.mpr fun role hrole => ?_
      exact unmarshalLine_string (h role hrole)
    · intro s hs
      obtain ⟨role, hrole, rfl⟩ := mem_map.mp hs
      simpa [string, (h role hrole).1.2 ';' (by decide)] using
        (h role hrole).not_mem_scopes (by decide) (by decide)
    · simp

theorem find?_addRole (roles : Roles) (role : Role) (k : RoleType) :
    (roles.addRole role).find? k = if k = role.roleType then some role else roles.find? k := by
  unfold addRole
  cases hins : roles.insert? role with
  | some => exact find?_insert? hins k
  | none =>
    cases hfind : roles.find? role.roleType with
    | none =>
      obtain ⟨roles', hroles'⟩ := exists_insert? (a := role) hfind
      rw [hins] at hroles'
      cases hroles'
    | some =>
      obtain ⟨hmem, hkey⟩ := find?_eq_some_iff.mp hfind
      rw [Option.getD_none, find?_set hmem hkey.symm, hkey]

theorem find?_foldl_addRole (rs : List Role) (roles : Roles) (k : RoleType) :
    (rs.foldl addRole roles).find? k =
      (rs.reverse.find? fun role => role.roleType = k).or (roles.find? k) := by
  induction rs generalizing roles with
  | nil => simp
  | cons role rs ih =>
    rw [foldl_cons, ih, find?_addRole, reverse_cons, find?_append, Option.or_assoc]
    by_cases hk : k = role.roleType
    · simp [hk]
    · simp [hk, Ne.symm hk]

section NewRoles

variable {roles : Roles} (hplain : ∀ role ∈ roles, role.Plain)
include hplain

theorem find?_newRoles (k : RoleType) : (newRoles roles.marshalRoles).find? k =
      (roles.rows.map reread).reverse.find? fun role => role.roleType = k := by
  rw [Roles.newRoles, Roles.marshalRoles, unmarshalRoles_marshalRoles hplain, find?_foldl_addRole]
  exact Option.or_none

theorem exists_of_find?_newRoles {k : RoleType} {r : Role}
    (h : (newRoles roles.marshalRoles).find? k = some r) :
    ∃ role ∈ roles, r = role.reread ∧ trimSpace role.roleType = k := by
  rw [find?_newRoles hplain] at h
  have hk := find?_some h
  obtain ⟨role, hrole, rfl⟩ := mem_map.mp (mem_reverse.mp (mem_of_find?_eq_some h))
  exact ⟨role, hrole, rfl, of_decide_eq_true hk⟩

theorem find?_newRoles_of_trimmed (ht : ∀ role ∈ roles, trimSpace role.roleType = role.roleType)
    (k : RoleType) :
    (newRoles roles.marshalRoles).find? k = (roles.find? k).map reread := by
  cases hnew : (newRoles roles.marshalRoles).find? k with
  | some =>
    obtain ⟨role, hrole, rfl, hk⟩ := exists_of_find?_newRoles hplain hnew
    rw [find?_eq_some_iff.mpr ⟨hrole, (ht role hrole).symm.trans hk⟩]
    rfl
  | none =>
    cases hfind : roles.find? k with
    | none => rfl
    | some role =>
      obtain ⟨hrole, hk⟩ := find?_eq_some_iff.mp hfind
      rw [find?_newRoles hplain, find?_eq_none] at hnew
      refine absurd ?_ (hnew role.reread (mem_reverse.mpr (mem_map_of_mem hrole)))
      simpa [reread, ht role hrole] using hk

end NewRoles

theorem Role.matchesScope_iff {scope : List String} :
    role.matchesScope scope = true ↔ role.scope ⊆ scope := by
  simp [matchesScope, subset_def]

theorem Role.reread_scope (role : Role) :
    role.reread.scope = if trimSpace (" ".intercalate role.scope) = "" then []
      else [trimSpace (" ".intercalate role.scope)] := by
  unfold reread
  split <;> simp [*]

def Role.Single (role : Role) : Prop :=
  role.scope.length ≤ 1 ∧ ∀ sc ∈ role.scope, trimSpace sc = sc

theorem Role.single_of_same
    (h : ∀ scope, role.reread.matchesScope scope = role.matchesScope scope) : role.Single := by
  have hsame : ∀ scope, role.reread.scope ⊆ scope ↔ role.scope ⊆ scope := by
    intro scope
    rw [← matchesScope_iff, h, matchesScope_iff]
  rw [reread_scope] at hsame
  split at hsame
  · have hnil : role.scope = [] := subset_nil.mp ((hsame []).mp (nil_subset _))
    simp [Role.Single, hnil]
  next hne =>
  have hall := (hsame [_]).mp (List.Subset.refl _)
  have hrep := eq_replicate_of_mem fun sc hsc => mem_singleton.mp (hall hsc)
  -- the scope that is left has as many characters as all of them together
  have hink : ink (trimSpace (" ".intercalate role.scope)) = _ :=
    (ink_trimSpace _).trans (countP_intercalate (by decide) role.scope)
  have hpos : 0 < ink (trimSpace (" ".intercalate role.scope)) := by
    rw [ink_trimSpace]
    exact ink_pos hne
  constructor
  · generalize trimSpace (" ".intercalate role.scope) = p at hrep hink hpos
    rw [hrep, map_replicate, sum_replicate_nat] at hink
    exact Nat.le_of_mul_le_mul_right (by rw [Nat.one_mul]; exact hink.ge) hpos
  · intro sc hsc
    rw [mem_singleton.mp (hall hsc), trimSpace_trimSpace]

theorem Role.Single.reread_scope (h : role.Single) (hplain : role.Plain) :
    role.reread.scope = role.scope := by
  obtain ⟨roleType, scope⟩ := role
  rw [reread_scope]
  match scope, h with
  | [], _ => rfl
  | [sc], h =>
    have htrim := h.2 sc mem_cons_self
    have hne := (hplain.2 sc mem_cons_self).1
    simp [htrim, hne]

/-- What is stored answers as before, for every type and all scopes, exactly if the types stay as
they are and roles other than the administrators' have no more than one scope. -/
theorem hasRole_newRoles_iff (roles : Roles) (hplain : ∀ role ∈ roles, role.Plain) :
    (∀ roleType scope, (Roles.newRoles roles.marshalRoles).hasRole roleType scope =
        roles.hasRole roleType scope) ↔
      ∀ role ∈ roles, trimSpace role.roleType = role.roleType ∧
        (role.roleType = RoleType.admin ∨ role.roleType = RoleType.readAdmin ∨
          role.scope.length ≤ 1 ∧ ∀ sc ∈ role.scope, trimSpace sc = sc) := by
  constructor
  · intro h
    have htrim : ∀ role ∈ roles, trimSpace role.roleType = role.roleType := by
      intro role hrole
      have hrights : roles.hasRole role.roleType role.scope = true := by
        rw [hasRole, find?_eq_some_iff.mpr ⟨hrole, rfl⟩]
        simp [matchesScope_iff.mpr (List.Subset.refl _)]
      rw [← h, hasRole] at hrights
      split at hrights
      · cases hrights
      next hfind =>
      obtain ⟨role', -, -, hk⟩ := exists_of_find?_newRoles hplain hfind
      rw [← hk, trimSpace_trimSpace]
    refine fun role hrole => ⟨htrim role hrole, ?_⟩
    by_cases hadmin : role.roleType = RoleType.admin ∨ role.roleType = RoleType.readAdmin
    · exact or_assoc.mp (.inl hadmin)
    refine .inr (.inr (single_of_same fun scope => ?_))
    have hsame := h role.roleType scope
    simp only [hasRole, find?_newRoles_of_trimmed hplain htrim,
      find?_eq_some_iff.mpr ⟨hrole, rfl⟩, Option.map_some, if_neg hadmin] at hsame
    exact hsame
  · intro h roleType scope
    simp only [hasRole, find?_newRoles_of_trimmed hplain fun role hrole => (h role hrole).1]
    cases hfind : roles.find? roleType with
    | none => rfl
    | some role =>
      obtain ⟨hrole, rfl⟩ := find?_eq_some_iff.mp hfind
      simp only [Option.map_some]
      split
      · rfl
      next hadmin =>
      rcases (h role hrole).2 with hkind | hkind | hsing
      · exact absurd (.inl hkind) hadmin
      · exact absurd (.inr hkind) hadmin
      · rw [Bool.eq_iff_iff, matchesScope_iff, matchesScope_iff,
          Role.Single.reread_scope hsing (hplain role hrole)]

def orgAdmin (scope : List String) : Roles :=
  ⟨[⟨"OrgAdmin", scope⟩], List.nodup_singleton _⟩

theorem hasRole_orgAdmin : (∀ role ∈ orgAdmin ["acme"], role.Plain) ∧
    ∀ roleType scope, (Roles.newRoles (orgAdmin ["acme"]).marshalRoles).hasRole roleType scope =
      (orgAdmin ["acme"]).hasRole roleType scope :=
  ⟨by decide, (hasRole_newRoles_iff (orgAdmin ["acme"]) (by decide)).mpr (by decide)⟩

theorem rights_lost : ¬ ∀ roles : Roles, (∀ role ∈ roles, role.Plain) → ∀ roleType scope,
      (Roles.newRoles roles.marshalRoles).hasRole roleType scope =
        roles.hasRole roleType scope := by
  intro h
  exact absurd (h (orgAdmin ["acme", "globex"]) (by decide) "OrgAdmin" ["acme", "globex"])
    (by decide)

end Formicary

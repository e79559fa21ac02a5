import Formicary.Model.SubmitJob
import Formicary.Verification.Definition.Versions

/-! # Submissions of a tenant

A submission that passes the checks stays inside the tenant of the job that makes it exactly if the
parent that it names and the request that holds its key are requests of the tenant, and if without
a parent the key is held or the tenant is nobody. -/

namespace Formicary.SubmitJob

open JobRequestRepository Table List

variable {env : Surroundings} {db : Database} {qc : QueryContext} {req : JobRequest}
  {params : List JobRequestParam} {call : Call} {new : Generated} {t : Tenant}

/-- The generated id is new, and the generated key is one. -/
@[mk_iff] structure Fresh (db : Database) (new : Generated) : Prop where
  ne_empty : new.id ≠ ""
  key : new.userKey ≠ ""
  unused : ∀ row ∈ db.requests, row.id ≠ new.id

instance : Decidable (Fresh db new) :=
  decidable_of_iff' _ (fresh_iff ..)

theorem pendingRequest_frame (env : Surroundings) (job : JobDefinitionRow) (now : Time)
    (req : JobRequest) : (pendingRequest env job now req).id = req.id ∧
      (pendingRequest env job now req).jobType = req.jobType ∧
      (pendingRequest env job now req).jobVersion = req.jobVersion ∧
      (pendingRequest env job now req).jobDefinitionID = job.id := by
  unfold pendingRequest scheduleRequest
  split
  · simp
  · split <;> simp

variable {req req' : JobRequest}

theorem prepare_frame (env : Surroundings) (qc : QueryContext) (req : JobRequest)
    (params : List JobRequestParam) (now : Time) :
    (prepare env qc req params now).1.id = req.id ∧
      (prepare env qc req params now).1.jobType = req.jobType ∧
      (prepare env qc req params now).1.jobVersion = req.jobVersion := by
  simp only [prepare]
  cases definitionFor env qc req.jobType req.jobVersion with
  | error => exact ⟨rfl, rfl, rfl⟩
  | ok => simp only [pendingRequest_frame, and_self]

/-- Only the type and the version of a request decide what its preparation says. -/
theorem prepare_congr (env : Surroundings) (qc : QueryContext)
    (params : List JobRequestParam) (htype : req'.jobType = req.jobType)
    (hver : req'.jobVersion = req.jobVersion) (now : Time) :
    (prepare env qc req' params now).2 = (prepare env qc req params now).2 ∧
      ((prepare env qc req params now).2 = .ok () → validate (prepare env qc req' params now).1 =
          validate (prepare env qc req params now).1) := by
  simp only [prepare, htype, hver]
  cases definitionFor env qc req.jobType req.jobVersion with
  | error => exact ⟨rfl, nofun⟩
  | ok =>
    simp only [checkForks, Forking.checkForks, validate, pendingRequest_frame, implies_true,
      and_self]

theorem saveJobRequest_again {prepared : JobRequest} {verdict : Except Error Unit}
    (hprep : prepare env qc req params new.now = (prepared, verdict))
    (htype : req'.jobType = req.jobType) (hver : req'.jobVersion = req.jobVersion)
    (hid : verdict = .ok () → validate prepared = .ok () → req'.id = new.id) :
    ∃ left again, ∀ other, Fresh other new →
      saveJobRequest env other qc req' params new = (left, .error again) := by
  obtain ⟨hverd, hval⟩ := prepare_congr env qc params htype hver new.now
  have hframe := (prepare_frame env qc req' params new.now).1
  rcases hsec : prepare env qc req' params new.now with ⟨left, verdict'⟩
  simp only [hprep, hsec] at hverd hval hframe
  subst hverd
  cases verdict' with
  | error err => exact ⟨left, err, fun other _ => by simp only [saveJobRequest, hsec]⟩
  | ok => cases hvalid : validate left with
    | error err =>
      exact ⟨left, err, fun other _ => by simp only [saveJobRequest, hsec, save, hvalid]⟩
    | ok =>
      refine ⟨{ left with userID := qc.getUserID, organizationID := qc.getOrganizationID },
        ⟨.notFound, "record not found"⟩, fun other hfresh => ?_⟩
      have hnew : left.id = new.id := hframe.trans (hid rfl ((hval rfl).symm.trans hvalid))
      have hne : left.id ≠ "" := hnew ▸ hfresh.ne_empty
      have hnone : other.requests.find? left.id = none :=
        find?_eq_none_iff.mpr (hnew ▸ hfresh.unused)
      simp only [saveJobRequest, hsec, save, hvalid, if_neg hne, JobRequestRepository.get, hnone]

/-- The request passes the checks that come before it is inserted. -/
def Passes (env : Surroundings) (qc : QueryContext) (req : JobRequest)
    (params : List JobRequestParam) (new : Generated) : Prop :=
  (prepare env qc req params new.now).2 = .ok () ∧
    validate (prepare env qc req params new.now).1 = .ok ()

/-- The key under which the request is to be inserted: its own one, unless the definition has a
schedule, or the generated one. -/
def keyOf (env : Surroundings) (qc : QueryContext) (req : JobRequest)
    (params : List JobRequestParam) (new : Generated) : String :=
  keyFor (prepare env qc req params new.now).1 new

/-- What becomes of a request without an id: it is turned away whatever the database holds, or it
passes and is inserted. What is left of it is turned away when it comes again. -/
theorem saveJobRequest_cases (env : Surroundings) (qc : QueryContext)
    (params : List JobRequestParam) (new : Generated) (hid : req.id = "") :
    ∃ left result, (∀ db, saveJobRequest env db qc req params new = (left, result db)) ∧
      (left.userKey ≠ "" → left.userKey = keyOf env qc req params new) ∧
      ((¬ Passes env qc req params new ∧ ∃ err, result = fun _ => .error err) ∨
        left.id = new.id ∧ left.tenant = qc.tenant ∧ left.userKey = keyOf env qc req params new ∧
          result = fun db => create env db left) ∧
      ∃ left' again, ∀ other, Fresh other new →
        saveJobRequest env other qc left params new = (left', .error again) := by
  obtain ⟨hpid, hptype, hpversion⟩ := prepare_frame env qc req params new.now
  rcases hprep : prepare env qc req params new.now with ⟨prepared, err | _⟩ <;>
    simp only [hprep, Passes, keyOf, keyFor] at hpid hptype hpversion ⊢
  · exact ⟨prepared, _, fun db => by simp only [saveJobRequest, hprep],
      fun hne => (if_neg hne).symm, .inl ⟨nofun, err, rfl⟩,
      saveJobRequest_again hprep hptype hpversion nofun⟩
  cases hvalid : validate prepared with
  | error err =>
    exact ⟨prepared, _, fun db => by simp only [saveJobRequest, hprep, save, hvalid],
      fun hne => (if_neg hne).symm, .inl ⟨nofun, err, rfl⟩,
      saveJobRequest_again hprep hptype hpversion fun _ h => by rw [hvalid] at h; cases h⟩
  | ok =>
    refine ⟨newRow qc prepared new, _, fun db => ?_, fun _ => rfl, .inr ⟨rfl, rfl, rfl, rfl⟩,
      saveJobRequest_again hprep hptype hpversion fun _ _ => rfl⟩
    simp only [saveJobRequest, hprep, save, hvalid, if_pos (hpid.trans hid)]

variable {row : JobRequest} {db' : Database}

theorem create_eq_ok (h : create env db row = .ok db') :
    ∃ requests, db.requests.insert? row = some requests ∧
      db' = { db with requests := requests } := by
  unfold create at h
  split at h
  · cases h
  split at h <;> cases h
  next requests hins =>
  exact ⟨requests, hins, rfl⟩

def rotated (existing : JobRequest) (new : Generated) (requests : Table JobRequest.id) :
    Table JobRequest.id :=
  requests.update (fun req => req.id == existing.id && true)
    (updateJobStateColumns existing.jobState "" "" 0 0 0 new.rotatedKey new.now) (fun _ => rfl)

variable {existing : JobRequest}

theorem updateJobState_rotates (hmem : existing ∈ db.requests) :
    updateJobState db existing.id none existing.jobState "" "" 0 0 0 new.rotatedKey new.now =
      .ok { db with requests := rotated existing new db.requests } := by
  have hselected : ∀ row : JobRequest, (row.id == existing.id && true) = true →
      row.id = existing.id :=
    fun row hrow => eq_of_beq (Bool.and_eq_true_iff.mp hrow).1
  have hupd : _ = some (rotated existing new db.requests) :=
    updateOne?_isSome_of_mem hselected hmem (by simp)
  unfold updateJobState
  dsimp only
  split
  · next hforb => cases hforb
  split
  · next requests h =>
    have heq := Option.some.inj (h.symm.trans hupd)
    rw [heq]
  · next h => cases h.symm.trans hupd

variable {requests : Table JobRequest.id}

theorem mem_rotated_iff : row ∈ rotated existing new requests ↔
      ∃ old ∈ requests, (if old.id == existing.id && true then
        updateJobStateColumns existing.jobState "" "" 0 0 0 new.rotatedKey
          new.now old else old) = row :=
  mem_update

theorem exists_of_mem_rotated
    (h : row ∈ rotated existing new requests) : ∃ old ∈ requests, old.id = row.id := by
  obtain ⟨old, hold, rfl⟩ := mem_rotated_iff.mp h
  refine ⟨old, hold, ?_⟩
  split <;> rfl

theorem mem_rotated (hmem : existing ∈ requests) (hrow : row.tenant ≠ existing.tenant) :
    row ∈ rotated existing new requests ↔ row ∈ requests := by
  have hunselected : ∀ other ∈ requests, other.tenant ≠ existing.tenant →
      (other.id == existing.id && true) = false := by
    intro other hother hten
    refine Bool.eq_false_iff.mpr fun hp => hten ?_
    rw [eq_of_key_eq hother hmem (eq_of_beq (Bool.and_eq_true_iff.mp hp).1)]
  exact mem_update_of_unselected
    (Q := fun other : JobRequest => other.tenant ≠ existing.tenant) _ hunselected
    (fun _ hten => hten) hrow

theorem fresh_rotated (h : Fresh db new) :
    Fresh { db with requests := rotated existing new db.requests } new := by
  refine ⟨h.ne_empty, h.key, fun row hrow => ?_⟩
  obtain ⟨old, hold, hid⟩ := exists_of_mem_rotated hrow
  exact hid ▸ h.unused old hold

variable {left : JobRequest} {again err : Error} (hagain : ∀ other, Fresh other new →
  saveJobRequest env other qc req params new = (left, .error again))

include hagain in
theorem retry_eq (existing : JobRequest) :
    ∃ again, ∀ other : Database, Fresh other new → existing ∈ other.requests →
      retry env other qc existing req params new =
        ({ other with requests := rotated existing new other.requests }, .error again) := by
  refine ⟨⟨again.kind, "SubmitJob: SaveJobRequest retry failed for job-type " ++
    req.jobType.quote ++ ": " ++ again.message⟩, fun other hfresh hmem => ?_⟩
  rw [retry, updateJobState_rotates hmem]
  dsimp only
  rw [hagain _ (fresh_rotated hfresh)]

/-- A submission has stayed inside a tenant: it has created at most one request, left the requests
of other tenants alone, created none for them, read none of them and returned the id of none. -/
structure Confined (t : Tenant) (db : Database) (after : Submitted) : Prop where
  created : ∀ row ∈ after.db.requests, ∀ row' ∈ after.db.requests,
    db.requests.find? row.id = none → db.requests.find? row'.id = none → row = row'
  others : ∀ row : JobRequest, row.tenant ≠ t → (row ∈ after.db.requests ↔ row ∈ db.requests)
  read : ∀ row ∈ after.read, row.tenant = t
  returned : ∀ id, after.result = .ok id → ∀ row ∈ db.requests, row.id = id → row.tenant = t

/-- A parent that is found and a request that holds the key belong to the tenant. Without a parent
the key is held, or the tenant is nobody. -/
def Inside (env : Surroundings) (t : Tenant) (db : Database) (call : Call) (new : Generated) :
    Prop :=
  ∀ given ∈ (readParams call new.now).toOption,
    let parent := findParent db given.1
    let Holds := fun row : JobRequest =>
      row.userKey = keyOf env (contextOf parent) given.1 given.2 new
    (∀ row ∈ parent, row.tenant = t) ∧ (∀ row ∈ db.requests, Holds row → row.tenant = t) ∧
      (parent.isNone = true → t = .user "" ∨ ∃ row ∈ db.requests, Holds row)

instance : Decidable (Inside env t db call new) :=
  inferInstanceAs (Decidable (∀ given ∈ (readParams call new.now).toOption,
    (_ ∧ (∀ row ∈ db.requests, _ = _ → _) ∧ (_ → _ ∨ ∃ row ∈ db.requests, _ = _))))

/-- The request that is read from the call passes the checks, and the wording of a violated index
is recognised. -/
def Tried (env : Surroundings) (db : Database) (call : Call) (new : Generated) : Prop :=
  isDuplicate ⟨.plain, env.violation⟩ = true ∧ ∀ given ∈ (readParams call new.now).toOption,
    Passes env (contextOf (findParent db given.1)) given.1 given.2 new

theorem readParams_id {now : Time} (h : readParams call now = .ok (req, params)) : req.id = "" := by
  refine Checked.foldlM_invariant (P := fun _ acc => acc.1.id = "") rfl ?_ h
  intro _ acc param acc' hacc htake
  unfold takeParam at htake
  repeat' split at htake
  all_goals cases htake
  all_goals exact hacc

theorem mem_of_findExisting (h : findExisting db qc req err = some existing) :
    existing ∈ db.requests ∧ existing.userKey = req.userKey ∧ req.userKey ≠ "" := by
  unfold findExisting at h
  split at h
  · next hguard =>
    obtain ⟨hmem, hp⟩ := first?_eq_some h
    exact ⟨hmem, eq_of_beq (Bool.and_eq_true_iff.mp hp).2, by simp_all⟩
  · cases h

theorem exists_findExisting (parent : Option JobRequest) (hmem : row ∈ db.requests)
    (hkey : row.userKey = req.userKey) (hdup : isDuplicate err = true) (hne : req.userKey ≠ "") :
    ∃ existing, findExisting db (contextOf parent) req err = some existing := by
  rw [findExisting, if_pos (by simpa [hdup] using hne), ← Option.isSome_iff_exists]
  by_contra hnone
  have hrow := first?_eq_none_iff.mp (Option.not_isSome_iff_eq_none.mp hnone) row hmem
  have hadmin : ∀ userID organizationID, (contextOf parent).withAdmin.orgElseUserWhere true userID
      organizationID = true := fun _ _ => rfl
  simp [hadmin, hkey] at hrow

include hagain in
theorem confined_afterFailure (hfresh : Fresh db new)
    (h : ∀ row ∈ findExisting db qc req err, row.tenant = t) :
    Confined t db (afterFailure env db qc req params err new) := by
  have hsame : ∀ row ∈ db.requests, ∀ row' ∈ db.requests,
      db.requests.find? row.id = none → db.requests.find? row'.id = none → row = row' :=
    fun row hrow _ _ hnone => absurd rfl (find?_eq_none_iff.mp hnone row hrow)
  unfold afterFailure
  cases hexis : findExisting db qc req err with
  | none =>
    exact ⟨hsame, fun _ _ => Iff.rfl, by simp, nofun⟩
  | some existing =>
    have hten := h existing hexis
    obtain ⟨hmem, -⟩ := mem_of_findExisting hexis
    have hread : ∀ row ∈ [existing], row.tenant = t := by
      intro row hrow
      rw [mem_singleton.mp hrow, hten]
    dsimp only
    split
    · obtain ⟨err', hretry⟩ := retry_eq hagain existing
      rw [hretry db hfresh hmem]
      refine ⟨fun row hrow _ _ hnone => ?_, fun row hrow => mem_rotated hmem (hten ▸ hrow),
        hread, nofun⟩
      obtain ⟨old, hold, hrid⟩ := exists_of_mem_rotated hrow
      exact absurd hrid (find?_eq_none_iff.mp hnone old hold)
    · refine ⟨hsame, fun _ _ => Iff.rfl, hread, fun id hok row hrow hrid => ?_⟩
      cases hok
      rw [eq_of_key_eq hrow hmem hrid, hten]

theorem mem_read_afterFailure (h : findExisting db qc req err = some existing) :
    existing ∈ (afterFailure env db qc req params err new).read := by
  unfold afterFailure
  rw [h]
  dsimp only
  split <;> exact mem_singleton_self existing

theorem contextOf_tenant (parent : Option JobRequest) :
    (contextOf parent).tenant = parent.elim (.user "") JobRequest.tenant := by
  cases parent <;> rfl

theorem confined_of_inside (hfresh : Fresh db new) (h : Inside env t db call new) :
    Confined t db (submitJob env db call new) := by
  unfold submitJob
  cases hread : readParams call new.now with
  | error =>
    refine ⟨fun row hrow _ _ hnone => ?_, fun _ _ => Iff.rfl, by simp, nofun⟩
    exact absurd rfl (find?_eq_none_iff.mp hnone row hrow)
  | ok given =>
    obtain ⟨req, params⟩ := given
    obtain ⟨hpar, hheld, hnobody⟩ := h (req, params) (by rw [hread]; rfl)
    obtain ⟨req', result, hsave, hkey, hres, left, again, hagain⟩ :=
      saveJobRequest_cases env (contextOf (findParent db req)) params new (readParams_id hread)
    dsimp only
    rw [hsave db]
    cases hdb : result db with
    | ok =>
      obtain ⟨-, err, rfl⟩ | ⟨hid', hten, hkey', rfl⟩ := hres
      · cases hdb
      obtain ⟨requests, hins, rfl⟩ := create_eq_ok hdb
      have howner : req'.tenant = t := by
        rw [hten, contextOf_tenant]
        cases hparent : findParent db req with
        | some row => exact hpar row hparent
        | none =>
          refine ((hnobody (by rw [hparent]; rfl)).resolve_right ?_).symm
          rintro ⟨row, hrow, hholds⟩
          have hany : db.requests.rows.any (holdsKey req'.userKey) = true :=
            any_eq_true.mpr ⟨row, hrow, beq_iff_eq.mpr (hholds.trans hkey'.symm)⟩
          simp [create, hany] at hdb
      -- a row whose id was not there before is the one that was inserted
      have hnew : ∀ row ∈ requests, db.requests.find? row.id = none → row = req' := by
        intro row hrow hnone
        exact ((mem_insert? hins).mp hrow).resolve_right fun hmem =>
          find?_eq_none_iff.mp hnone row hmem rfl
      refine ⟨fun row hrow row' hrow' hnone hnone' => ?_, fun row hrow => ?_,
        fun row hrow => hpar row (Option.mem_toList.mp hrow), fun id hok => ?_⟩
      · rw [hnew row hrow hnone, hnew row' hrow' hnone']
      · rw [mem_insert? hins, or_iff_right]
        rintro rfl
        exact hrow howner
      · cases hok
        intro row hrow hrid
        exact absurd (hrid.trans hid') (hfresh.unused row hrow)
    | error err =>
      have hown : ∀ row ∈ findExisting db (contextOf (findParent db req)) req' err,
          row.tenant = t := by
        intro row hrow
        obtain ⟨hmem, hrkey, hne⟩ := mem_of_findExisting hrow
        exact hheld row hmem (hrkey.trans (hkey hne))
      have hexis := confined_afterFailure hagain hfresh hown
      refine { hexis with read := fun row hrow => ?_ }
      rcases mem_append.mp hrow with hrow | hrow
      · exact hpar row (Option.mem_toList.mp hrow)
      · exact hexis.read row hrow

def Agree (t : Tenant) (db db' : Database) : Prop :=
  ∀ row : JobRequest, row.tenant = t → (row ∈ db.requests ↔ row ∈ db'.requests)

def AgreeOn (key : String) (db db' : Database) : Prop :=
  ∀ row : JobRequest, row.userKey = key → (row ∈ db.requests ↔ row ∈ db'.requests)

def UniqueKeys (db : Database) : Prop :=
  ∀ row ∈ db.requests, ∀ row' ∈ db.requests, row.userKey = row'.userKey → row = row'

instance : Decidable (UniqueKeys db) :=
  inferInstanceAs (Decidable (∀ row ∈ db.requests, ∀ row' ∈ db.requests, _))

theorem inside_of_confined (hfresh : Fresh db new) (huniq : UniqueKeys db)
    (htried : Tried env db call new) (h : Confined t db (submitJob env db call new)) :
    Inside env t db call new := by
  intro given hgiven
  have hread := Checked.toOption_eq_some.mp hgiven
  obtain ⟨req, params⟩ := given
  have hpasses := htried.2 _ hgiven
  obtain ⟨req', result, hsave, -, hres, -⟩ :=
    saveJobRequest_cases env (contextOf (findParent db req)) params new (readParams_id hread)
  obtain ⟨hno, -⟩ | ⟨hid', hten, hkey, rfl⟩ := hres
  · exact absurd hpasses hno
  simp only [submitJob, hread, hsave, create] at h
  by_cases hheld : db.requests.rows.any (holdsKey req'.userKey) = true
  · -- the row that holds the key is read
    rw [if_pos hheld] at h
    have hne : req'.userKey ≠ "" := by
      rw [hkey, keyOf, keyFor]
      split
      · exact hfresh.key
      · assumption
    obtain ⟨holder, hholder, hholds⟩ := any_eq_true.mp hheld
    obtain ⟨existing, hexis⟩ := exists_findExisting (findParent db req) hholder (eq_of_beq hholds)
      htried.1 hne
    have hten := h.read existing (mem_append_right _ (mem_read_afterFailure hexis))
    obtain ⟨hmem, hekey, -⟩ := mem_of_findExisting hexis
    refine ⟨fun row hrow => h.read row (mem_append_left _ (Option.mem_toList.mpr hrow)),
      fun row hrow hrkey => ?_, fun _ => .inr ⟨existing, hmem, hekey.trans hkey⟩⟩
    rwa [huniq row hrow existing hmem (hrkey.trans (hekey.trans hkey).symm)]
  · rw [if_neg hheld] at h
    obtain ⟨requests, hins⟩ := exists_insert? (find?_eq_none_iff.mpr (hid' ▸ hfresh.unused))
    rw [hins] at h
    refine ⟨fun row hrow => h.read row (Option.mem_toList.mpr hrow), fun row hrow hholds => ?_,
      fun hparent => .inl ?_⟩
    · exact hheld.elim (any_eq_true.mpr ⟨row, hrow, beq_iff_eq.mpr (hholds.trans hkey.symm)⟩)
    · rw [contextOf_tenant, Option.isNone_iff_eq_none.mp hparent] at hten
      by_contra hother
      have hmem := (h.others req' fun heq => hother (heq.symm.trans hten)).mp
        ((mem_insert? hins).mpr (.inl rfl))
      exact hfresh.unused req' hmem hid'

theorem findParent_eq (db : Database) (req : JobRequest) :
    findParent db req = if req.parentID = "" then none else db.requests.find? req.parentID := by
  unfold findParent JobRequestRepository.get
  split
  · rfl
  cases db.requests.find? req.parentID with
  | none | some => rfl

theorem findParent_congr (hagree : Agree t db db') (h : ∀ row ∈ findParent db req, row.tenant = t)
    (h' : ∀ row ∈ findParent db' req, row.tenant = t) : findParent db req = findParent db' req := by
  rw [findParent_eq] at h h' ⊢
  rw [findParent_eq]
  split
  · rfl
  next hne =>
  rw [if_neg hne] at h h'
  ext row
  rw [find?_eq_some_iff, find?_eq_some_iff]
  constructor
  · rintro ⟨hmem, hid⟩
    have hten := h row (find?_eq_some_iff.mpr ⟨hmem, hid⟩)
    exact ⟨(hagree row hten).mp hmem, hid⟩
  · rintro ⟨hmem, hid⟩
    have hten := h' row (find?_eq_some_iff.mpr ⟨hmem, hid⟩)
    exact ⟨(hagree row hten).mpr hmem, hid⟩

theorem create_congr (env : Surroundings)
    (hfresh : db.requests.find? row.id = none) (hfresh' : db'.requests.find? row.id = none)
    (hkey : AgreeOn row.userKey db db') :
    (∃ requests requests', db.requests.insert? row = some requests ∧
        db'.requests.insert? row = some requests' ∧
        create env db row = .ok { db with requests := requests } ∧
        create env db' row = .ok { db' with requests := requests' }) ∨
      ∃ err, create env db row = .error err ∧ create env db' row = .error err := by
  have hheld : db.requests.rows.any (holdsKey row.userKey) =
      db'.requests.rows.any (holdsKey row.userKey) := by
    rw [Bool.eq_iff_iff, any_eq_true, any_eq_true]
    refine exists_congr fun other => and_congr_left fun hholds => hkey other (eq_of_beq hholds)
  unfold create
  rw [hheld]
  split
  · exact .inr ⟨_, rfl, rfl⟩
  obtain ⟨requests, hins⟩ := exists_insert? hfresh
  obtain ⟨requests', hins'⟩ := exists_insert? hfresh'
  rw [hins, hins']
  exact .inl ⟨requests, requests', rfl, rfl, rfl, rfl⟩

theorem findExisting_congr (huniq : UniqueKeys db) (huniq' : UniqueKeys db')
    (hkey : req.userKey ≠ "" → AgreeOn req.userKey db db') :
    findExisting db qc req err = findExisting db' qc req err := by
  -- what either database finds is in the other, which can find nothing else
  have hfound : ∀ {db db'}, UniqueKeys db' → (req.userKey ≠ "" → AgreeOn req.userKey db db') →
      ∀ row, findExisting db qc req err = some row → findExisting db' qc req err = some row := by
    intro db db' huniq' hkey row hrow
    obtain ⟨hmem, hrkey, hne⟩ := mem_of_findExisting hrow
    have hmem' := (hkey hne row hrkey).mp hmem
    cases hother : findExisting db' qc req err with
    | some row' =>
      obtain ⟨hmem₂, hrkey₂, -⟩ := mem_of_findExisting hother
      rw [huniq' row' hmem₂ row hmem' (hrkey₂.trans hrkey.symm)]
    | none =>
      unfold findExisting at hrow hother
      split at hrow
      · next hguard =>
        rw [if_pos hguard] at hother
        have hp := (first?_eq_some hrow).2
        rw [first?_eq_none_iff.mp hother row hmem'] at hp
        cases hp
      · cases hrow
  ext row
  exact ⟨hfound huniq' hkey row, hfound huniq (fun hne r hr => (hkey hne r hr).symm) row⟩

theorem agree_rotated (hagree : Agree t db db') :
    Agree t { db with requests := rotated existing new db.requests }
      { db' with requests := rotated existing new db'.requests } := by
  intro row hrow
  rw [mem_rotated_iff, mem_rotated_iff]
  refine exists_congr fun old => and_congr_left fun hold => hagree old ?_
  -- the update leaves the owner alone
  rw [← hrow, ← hold]
  split <;> rfl

include hagain in
theorem afterFailure_congr (err : Error) (hfresh : Fresh db new) (hfresh' : Fresh db' new)
    (huniq : UniqueKeys db) (huniq' : UniqueKeys db') (hagree : Agree t db db')
    (hkey : req.userKey ≠ "" → AgreeOn req.userKey db db') :
    (afterFailure env db qc req params err new).result =
        (afterFailure env db' qc req params err new).result ∧
      Agree t (afterFailure env db qc req params err new).db
        (afterFailure env db' qc req params err new).db := by
  unfold afterFailure
  rw [← findExisting_congr huniq huniq' hkey]
  cases hexis : findExisting db qc req err with
  | none => exact ⟨rfl, hagree⟩
  | some existing =>
    dsimp only
    split
    · obtain ⟨hmem, hekey, hne⟩ := mem_of_findExisting hexis
      obtain ⟨err', hretry⟩ := retry_eq hagain existing
      rw [hretry db hfresh hmem, hretry db' hfresh' ((hkey hne existing hekey).mp hmem)]
      exact ⟨rfl, agree_rotated hagree⟩
    · exact ⟨rfl, hagree⟩

/-- A submission stays inside a tenant if the parent that is found and the request that holds its
key are the tenant's and it is not saved for nobody; if it passes the checks, only then. In two
databases with the same requests of the tenant its result is the same then, and the requests of the
tenant stay the same. -/
theorem submitJob_inside_iff (env : Surroundings) (t : Tenant) (call : Call)
    (hfresh : Fresh db new) (hunique : UniqueKeys db) :
    (Inside env t db call new → Confined t db (submitJob env db call new)) ∧
    (Tried env db call new → Confined t db (submitJob env db call new) → Inside env t db call new) ∧
    ∀ db', Fresh db' new → UniqueKeys db' → Agree t db db' →
      Inside env t db call new → Inside env t db' call new →
      (submitJob env db call new).result = (submitJob env db' call new).result ∧
        Agree t (submitJob env db call new).db (submitJob env db' call new).db := by
  refine ⟨confined_of_inside hfresh, inside_of_confined hfresh hunique, ?_⟩
  intro db' hfresh' huniq' hagree hinside hinside'
  unfold submitJob
  cases hread : readParams call new.now with
  | error => exact ⟨rfl, hagree⟩
  | ok given =>
    obtain ⟨req, params⟩ := given
    obtain ⟨hown, hheld, -⟩ := hinside (req, params) (by rw [hread]; rfl)
    obtain ⟨hown', hheld', -⟩ := hinside' (req, params) (by rw [hread]; rfl)
    have hpar := findParent_congr hagree hown hown'
    dsimp only at hheld hheld' ⊢
    rw [← hpar] at hheld' ⊢
    obtain ⟨req', result, hsave, hkey, hres, left, again, hagain⟩ :=
      saveJobRequest_cases env (contextOf (findParent db req)) params new (readParams_id hread)
    simp only [hsave]
    have hsame : AgreeOn (keyOf env (contextOf (findParent db req)) req params new) db db' := by
      intro row hrow
      exact ⟨fun hmem => (hagree row (hheld row hmem hrow)).mp hmem,
        fun hmem => (hagree row (hheld' row hmem hrow)).mpr hmem⟩
    have hfail := fun err => afterFailure_congr hagain err hfresh hfresh' hunique huniq' hagree
      fun hne => hkey hne ▸ hsame
    obtain ⟨-, err, rfl⟩ | ⟨hnew, -, hkey', rfl⟩ := hres
    · exact hfail err
    have hnone := find?_eq_none_iff.mpr (hnew ▸ hfresh.unused)
    have hnone' := find?_eq_none_iff.mpr (hnew ▸ hfresh'.unused)
    rcases create_congr env hnone hnone' (hkey' ▸ hsame) with hok | ⟨err, herr, herr'⟩
    · obtain ⟨requests, requests', hins, hins', hcr, hcr'⟩ := hok
      dsimp only
      rw [hcr, hcr']
      refine ⟨rfl, fun other hother => ?_⟩
      rw [mem_insert? hins, mem_insert? hins', hagree other hother]
    · simp only [herr, herr']
      exact hfail err

def definedBy (organizationID : String) : JobDefinitionRow :=
  { JobDefinitionRepository.uploaded "build" with
    id := "build of " ++ organizationID
    organizationID := organizationID
    active := true }

/-- `build` is defined by two organizations, and by nobody in particular. -/
def builds : Surroundings where
  definitions := ⟨[definedBy "acme", definedBy "globex", definedBy ""], by decide⟩
  next _ _ := none
  format _ := ""
  quotaError _ := none
  violation := "UNIQUE constraint failed: formicary_job_requests.user_key"

def requestOf (organizationID id userKey : String) (state : RequestState) : JobRequest :=
  { JobSupervisor.readyRequest with
    id := id
    organizationID := organizationID
    userID := ""
    userKey := userKey
    jobState := state }

def beside (state : RequestState) : Database :=
  { Database.empty with
    requests := ⟨[requestOf "acme" "a1" "k1" .executing, requestOf "globex" "g1" "nightly" state],
      by simp [requestOf]⟩ }

def buildWith (params : List (String × String)) : Call := ⟨"build", "", params⟩

def generated : Generated := ⟨"s1", "k2", "k3", 10⟩

def weekly : Call := buildWith [("_parent_id", "a1"), ("_user_key", "weekly")]

/-- A child of the job of `acme` under a key that nobody has is the same whatever becomes of the
request of `globex`. -/
theorem submitJob_inside_weekly : Confined (.organization "acme") (beside .executing)
        (submitJob builds (beside .executing) weekly generated) ∧
      (submitJob builds (beside .executing) weekly generated).result =
        (submitJob builds (beside .completed) weekly generated).result := by
  have hagree : Agree (.organization "acme") (beside .executing) (beside .completed) := by
    intro row hten
    have hother : ∀ state, row ≠ requestOf "globex" "g1" "nightly" state := by
      rintro state rfl
      exact absurd hten (by simp [requestOf, JobRequest.tenant, Tenant.of])
    simp only [← mem_rows, beside, mem_cons, hother, not_mem_nil, or_false]
  have hfresh : Fresh (beside .executing) generated := by decide
  have hins := submitJob_inside_iff builds (.organization "acme") weekly hfresh (by decide)
  exact ⟨hins.1 (by decide), (hins.2.2 (beside .completed) (by decide) (by decide) hagree
    (by decide) (by decide)).1⟩

/-- The job of `acme` submits requests that belong to nobody, to `globex`, and under a key that a
request of `globex` holds. -/
theorem submitJob_outside :
    (∃ row ∈ (submitJob builds (beside .executing) (buildWith []) generated).db.requests.rows,
        row.id = "s1" ∧ row.tenant = .user "") ∧
      (∃ row ∈ (submitJob builds (beside .executing) (buildWith [("_parent_id", "g1")])
          generated).db.requests.rows, row.id = "s1" ∧ row.tenant = .organization "globex") ∧
      (submitJob builds (beside .executing)
        (buildWith [("_parent_id", "a1"), ("_user_key", "nightly")]) generated).result.toOption =
        some "g1" ∧
      (submitJob builds (beside .completed)
        (buildWith [("_parent_id", "a1"), ("_user_key", "nightly")]) generated).db.requests.rows.map
          (fun row => (row.id, row.userKey)) = [("a1", "k1"), ("g1", "k3")] := by
  decide

end Formicary.SubmitJob

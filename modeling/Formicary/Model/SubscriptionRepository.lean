import Formicary.Model.JobDefinitionRepository

/-! # The repository of subscriptions

Times of creation and update are left out. -/

namespace Formicary

inductive Subscription.Policy where
  | freemium
  | basic
  | enterprise
  | unlimited
  deriving DecidableEq, Repr

inductive Subscription.Kind where
  | individual
  | organization
  deriving DecidableEq, Repr

inductive Subscription.Period where
  | weekly
  | monthly
  | semiAnnual
  | annual
  deriving DecidableEq, Repr

/-- What is not specified is `none`. -/
structure Subscription where
  id : String
  userID : String
  organizationID : String
  policy : Option Subscription.Policy
  kind : Option Subscription.Kind
  period : Option Subscription.Period
  price : ℤ
  cpuQuota : ℤ
  diskQuota : ℤ
  startedAt : Option Time
  endedAt : Option Time
  active : Bool
  deriving DecidableEq, Repr

namespace Subscription

def newFreemiumSubscription (user : User) (now : Time) : Subscription where
  id := ""
  userID := user.id
  organizationID := user.organizationID
  policy := some .freemium
  kind := some (if user.organization then .organization else .individual)
  period := some .monthly
  price := 0
  cpuQuota := 1000
  diskQuota := 1000
  startedAt := some now
  endedAt := some (now + 24 * 30 * 3600)
  active := true

def validate (sub : Subscription) : Except Error Unit :=
  if sub.kind = none then .error ⟨.validation, "kind is not specified"⟩
  else if sub.policy = none then .error ⟨.validation, "policy is not specified"⟩
  else if sub.period = none then .error ⟨.validation, "period is not specified"⟩
  else if sub.userID = "" ∧ sub.organizationID = "" then
    .error ⟨.validation, "userID and organizationID is not specified"⟩
  else if sub.price = 0 ∧ sub.policy ≠ some .freemium then
    .error ⟨.validation, "price is not specified"⟩
  else if sub.cpuQuota = 0 then .error ⟨.validation, "cpu-quota is not specified"⟩
  else if sub.diskQuota = 0 then .error ⟨.validation, "disk-quota is not specified"⟩
  else if sub.startedAt = none then .error ⟨.validation, "started-at is not specified"⟩
  else if sub.endedAt = none then .error ⟨.validation, "ended-at is not specified"⟩
  else .ok ()

def owner (sub : Subscription) : Tenant := .of sub.userID sub.organizationID

end Subscription

abbrev SubscriptionRepository := Table Subscription.id

namespace SubscriptionRepository

-- whether gorm adds the id of the record that an update is told to be about to its conditions
variable (keyed : Bool) (subs : SubscriptionRepository)

/-- The subscriptions that `Create` makes inactive before it stores the new one. -/
def resets (sub old : Subscription) : Bool :=
  (old.active && old.id != sub.id &&
    (old.userID == sub.userID || old.organizationID == sub.organizationID)) &&
    (!keyed || old.id == sub.id)

def create (sub : Subscription) (freshID : String) : Except Error SubscriptionRepository := do
  sub.validate
  let sub := { sub with id := freshID, active := true }
  let reset := subs.update (resets keyed sub) (fun old => { old with active := false })
    (fun _ => rfl)
  match reset.insert? sub with
  | some subs => return subs
  | none => throw ⟨.plain, "UNIQUE constraint failed"⟩

/-- `Update`. A record that is not stored yet is inserted. -/
def update (qc : QueryContext) (sub : Subscription) : Except Error SubscriptionRepository := do
  sub.validate
  if !qc.matchesOwner sub.userID sub.organizationID false then
    throw ⟨.permission, "subscription owner didn't match"⟩
  let sub := { sub with active := true }
  match subs.insert? sub with
  | some subs => return subs
  | none => if sub.id = "" then throw ⟨.plain, "UNIQUE constraint failed"⟩ else return subs.set sub

/-- Whether the subscription of a user is found when the user is loaded. -/
def hasSubscription (userID : String) (now : Time) : Bool :=
  subs.rows.any fun sub => sub.userID == userID && sub.active &&
    sub.startedAt.any (· ≤ now) && sub.endedAt.any (now ≤ ·)

inductive Call where
  | create (sub : Subscription) (freshID : String)
  | update (qc : QueryContext) (sub : Subscription)

def step : Call → Option SubscriptionRepository
  | .create sub freshID =>
    -- generated ids are new
    if subs.find? freshID = none then some ((create keyed subs sub freshID).toOption.getD subs)
    else none
  | .update qc sub => some ((update subs qc sub).toOption.getD subs)

def system : TransitionSystem SubscriptionRepository Call where
  init subs := subs = Table.empty
  step := step keyed

end SubscriptionRepository

end Formicary

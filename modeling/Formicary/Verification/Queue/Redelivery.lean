import Formicary.Library.Checked
import Formicary.Library.Pool
import Formicary.Model.Queue.ClientChannel

/-! # How often a refused message is delivered

A message that is refused is delivered again under its own identifier and, as a new message whose
refusals are counted from the start, under another one. -/

namespace Formicary.Queue.ClientChannel

open List Nat State

def State.deliveries (s : State) (root : ID) : ℕ := s.log.count (.delivered root)

def State.deadLetters (s : State) (root : ID) : ℕ := s.log.count (.deadLettered root)

def State.unanswered (s : State) (root : ID) : ℕ :=
  s.outstanding.countP fun copy => copy.root == root

/-- A message is delivered at most as often as the limit says, goes to the dead-letter topic at
most once and exactly once when the deliveries are used up, and is not delivered after that. -/
structure Bounded (config : QueueConfig) (sub : Subscriber) (s : State) : Prop where
  deliveries : ∀ root, s.deliveries root ≤ config.retryMax
  deadLetters : sub.deadLetterQueue ≠ "" → ∀ root, s.deadLetters root ≤ 1 ∧
    (s.deliveries root = config.retryMax → s.unanswered root = 0 → s.deadLetters root = 1)
  quiet : s.log.Pairwise fun later earlier =>
    ∀ root, earlier = .deadLettered root → later ≠ .delivered root

/-- The dead-letter topic, if there is one, is another topic with a valid name. -/
def Subscriber.ProperDeadLetterQueue (sub : Subscriber) : Prop :=
  sub.deadLetterQueue ≠ "" →
    validateTopic sub.deadLetterQueue = .ok () ∧ sub.deadLetterQueue ≠ sub.topic

/-- The context of a delivery lasts until the subscriber has refused it. -/
def ContextLive (_ : State) : Action → Prop
  | .nack _ ctxErr _ => ctxErr = false
  | _ => True

instance (s : State) : DecidablePred (ContextLive s) := fun a => by
  cases a <;> dsimp only [ContextLive] <;> infer_instance

theorem wrapError_eq_ok {context : String} {result : Except String Unit} :
    wrapError context result = .ok () ↔ result = .ok () := by
  cases result <;> simp [wrapError, Except.mapError]

variable {props : MessageHeaders}

theorem validateProperties_eq_ok :
    validateProperties props = .ok () ↔ (∀ e ∈ props.entries, validateHeader e.1 e.2 = .ok ()) ∧
        props.getCorrelationID.utf8ByteSize ≤ 128 ∧
        (props.getReplyTopic ≠ "" → validateTopic props.getReplyTopic = .ok ()) := by
  rw [validateProperties, Checked.seq_eq_ok, Checked.forM_eq_ok]
  refine and_congr_right fun _ => ?_
  by_cases hid : props.getCorrelationID.utf8ByteSize ≤ 128
  · by_cases hreply : props.getReplyTopic = "" <;>
      simp [hid, not_lt.mpr hid, hreply, wrapError_eq_ok]
  · simp [hid, Nat.lt_of_not_le hid]

variable {topic : String} {payload : List UInt8}

theorem validateSendRequest_eq_ok {config : QueueConfig} :
    validateSendRequest config topic payload props = .ok () ↔
      validateTopic topic = .ok () ∧ payload ≠ [] ∧ payload.length ≤ config.maxMessageSize ∧
        validateProperties props = .ok () := by
  rw [validateSendRequest, Checked.seq_eq_ok]
  refine and_congr_right fun _ => ?_
  by_cases hpay : payload = []
  · simp [hpay]
  by_cases hsize : payload.length ≤ config.maxMessageSize
  · simp [hpay, hsize, not_lt.mpr hsize]
  · simp [hpay, hsize, Nat.lt_of_not_le hsize]

theorem validateProperties_insert {key value : String}
    (h : validateProperties props = .ok ()) (hheader : validateHeader key value = .ok ())
    (hcorrelation : MessageHeaders.correlationIDKey ≠ key)
    (hreply : MessageHeaders.replyTopicKey ≠ key) :
    validateProperties (props.insert key value) = .ok () := by
  obtain ⟨hent, hid, htopic⟩ := validateProperties_eq_ok.mp h
  refine validateProperties_eq_ok.mpr ⟨?_, ?_, ?_⟩
  · refine forall_mem_cons.mpr ⟨hheader, fun e he => ?_⟩
    exact hent e ((kerase_sublist key props.entries).mem he)
  · simpa [MessageHeaders.getCorrelationID, MessageHeaders.get, AList.lookup_insert_ne hcorrelation]
      using hid
  · simpa [MessageHeaders.getReplyTopic, MessageHeaders.get, AList.lookup_insert_ne hreply]
      using htopic

theorem validateTopic_length (h : validateTopic topic = .ok ()) : topic.utf8ByteSize ≤ 249 := by
  unfold validateTopic at h
  split at h
  · cases h
  split at h
  · cases h
  · omega

variable {config : QueueConfig} {sub : Subscriber} {s s' : State} {copy : Copy}

def Copy.Valid (config : QueueConfig) (copy : Copy) : Prop :=
  validateSendRequest config copy.event.topic copy.event.payload copy.event.properties = .ok ()

theorem validate_deadLetter (hprop : sub.ProperDeadLetterQueue) (hdlq : sub.deadLetterQueue ≠ "")
    (h : copy.Valid config) :
    validateSendRequest config sub.deadLetterQueue copy.event.payload
      (deadLetterHeaders copy.event 1) = .ok () := by
  obtain ⟨htopic, hpay, hsize, hprops⟩ := validateSendRequest_eq_ok.mp h
  refine validateSendRequest_eq_ok.mpr ⟨(hprop hdlq).1, hpay, hsize, ?_⟩
  have horigin : validateHeader "OriginalTopic" copy.event.topic = .ok () := by
    have hlen := validateTopic_length htopic
    rw [validateHeader, Checked.seq_eq_ok, wrapError_eq_ok, wrapError_eq_ok]
    refine ⟨by decide, ?_⟩
    unfold validateHeaderValue
    rw [if_neg (by omega)]
  refine validateProperties_insert ?_ (by decide) (by decide) (by decide)
  refine validateProperties_insert ?_ horigin (by decide) (by decide)
  exact validateProperties_insert hprops (by decide) (by decide) (by decide)

variable {ctxErr : Bool} {root : ID}

theorem send_eq_ok : send config sub s ctxErr topic payload props root = .ok s' ↔
    ctxErr = false ∧ validateSendRequest config topic payload props = .ok () ∧
      s' = if topic = sub.topic then
          notify sub { s with nextID := s.nextID + 1 } ⟨⟨s.nextID, topic, payload, props⟩, root⟩
        else { s with nextID := s.nextID + 1 } := by
  cases ctxErr with
  | true => simp [send]
  | false => cases hvalid : validateSendRequest config topic payload props <;>
      simp [send, hvalid, eq_comm]

theorem step_send (hs : step config sub s (.send payload props) = some s') :
    validateSendRequest config sub.topic payload props = .ok () ∧
      s' = notify sub { s with nextID := s.nextID + 1 }
        ⟨⟨s.nextID, sub.topic, payload, props⟩, s.nextID⟩ := by
  obtain ⟨-, hvalid, rfl⟩ := send_eq_ok.mp (Checked.toOption_eq_some.mp hs)
  exact ⟨hvalid, if_pos rfl⟩

variable {receiving : Bool}

theorem refuse_of_no_deadLetter (hlimit : config.retryMax = 1) (hdlq : sub.deadLetterQueue = "") :
    refuse config sub s copy ctxErr receiving = { s with
        retries := s.retries.insert copy.event.id
          ((s.retries.lookup copy.event.id).getD 0 + 1) } := by
  simp [refuse, hlimit, hdlq]

theorem refuse_of_deadLetter (hlimit : config.retryMax = 1)
    (hprop : sub.ProperDeadLetterQueue) (hdlq : sub.deadLetterQueue ≠ "")
    (hfirst : s.retries.lookup copy.event.id = none) (hvalid : copy.Valid config) :
    refuse config sub s copy false receiving = { s with
        nextID := s.nextID + 1
        retries := (s.retries.insert copy.event.id 1).erase copy.event.id
        log := .deadLettered copy.root :: s.log } := by
  have hacc := validate_deadLetter hprop hdlq hvalid
  simp [refuse, hlimit, hdlq, hfirst, send_eq_ok.mpr ⟨rfl, hacc, rfl⟩, (hprop hdlq).2]

theorem unanswered_eraseIdx {i : ℕ} (h : s.outstanding[i]? = some copy) (root : ID) :
    unanswered { s with outstanding := s.outstanding.eraseIdx i } root +
      (if copy.root = root then 1 else 0) = s.unanswered root := by
  have hcount := Pool.countP_eraseIdx (fun c => c.root == root) h
  simp only [beq_iff_eq] at hcount
  exact hcount

/-- What holds of every state when the first refusal of a message is also the last. -/
structure Once (config : QueueConfig) (sub : Subscriber) (s : State) : Prop where
  redeliveryCh : s.redeliveryCh = []
  delayed : s.delayed = []
  retries : sub.deadLetterQueue ≠ "" → ∀ id, s.retries.lookup id = none
  valid : ∀ copy ∈ s.outstanding,
    validateSendRequest config copy.event.topic copy.event.payload copy.event.properties = .ok ()
  /-- what has not been sent yet has left no trace -/
  unsent : ∀ root, s.nextID ≤ root →
    s.deliveries root = 0 ∧ s.deadLetters root = 0 ∧ s.unanswered root = 0
  deliveries : ∀ root, s.deliveries root ≤ 1
  answered : sub.deadLetterQueue ≠ "" → ∀ root,
    s.deadLetters root + s.unanswered root = s.deliveries root
  quiet : s.log.Pairwise fun later earlier =>
    ∀ root, earlier = .deadLettered root → later ≠ .delivered root

theorem Once.bounded (hlimit : config.retryMax = 1) (h : Once config sub s) :
    Bounded config sub s := by
  refine ⟨?_, ?_, h.quiet⟩
  · rw [hlimit]
    exact h.deliveries
  intro hdlq root
  have hansw := h.answered hdlq root
  have hdels := h.deliveries root
  omega

theorem once_initial : Once config sub initial := by
  refine ⟨rfl, rfl, fun _ _ => rfl, ?_, fun _ _ => ⟨rfl, rfl, rfl⟩, fun _ => zero_le 1,
    fun _ _ => rfl, List.Pairwise.nil⟩
  intro copy hcopy
  cases hcopy

theorem once_notify (h : Once config sub s)
    (hs : notify sub { s with nextID := s.nextID + 1 } copy = s') (hroot : copy.root = s.nextID)
    (hvalid : copy.Valid config) : Once config sub s' := by
  unfold notify at hs
  split at hs
  · obtain ⟨hdeliv, hdead, -⟩ := h.unsent s.nextID le_rfl
    have hdels : ∀ root, s'.deliveries root =
        s.deliveries root + if copy.root = root then 1 else 0 := by
      simp [← hs, deliveries, count_cons]
    have hdeadLetters : ∀ root, s'.deadLetters root = s.deadLetters root := by
      simp [← hs, deadLetters]
    have hansw : ∀ root, s'.unanswered root =
        s.unanswered root + if copy.root = root then 1 else 0 := by
      simp [← hs, unanswered, countP_cons]
    subst hs
    refine ⟨h.redeliveryCh, h.delayed, h.retries, ?_, ?_, ?_, ?_, ?_⟩
    · exact forall_mem_append.mpr ⟨h.valid, forall_mem_singleton.mpr hvalid⟩
    · intro root hle
      have hne : copy.root ≠ root := by
        rw [hroot]
        exact Nat.ne_of_lt hle
      rw [hdels, hdeadLetters, hansw, if_neg hne]
      exact h.unsent root (le_of_succ_le hle)
    · intro root
      rw [hdels]
      split
      · next heq =>
        rw [← heq, hroot, hdeliv]
      · exact h.deliveries root
    · intro hdlq root
      have hold := h.answered hdlq root
      rw [hdels, hdeadLetters, hansw]
      omega
    · refine pairwise_cons.mpr ⟨?_, h.quiet⟩
      rintro earlier hearl root rfl heq
      cases heq
      -- no message is in the dead-letter topic before it is sent
      rw [hroot] at hearl
      exact count_eq_zero.mp hdead hearl
  · subst hs
    refine { h with unsent := ?_ }
    intro root hle
    exact h.unsent root (le_of_succ_le hle)

section

variable (hlimit : config.retryMax = 1) (hprop : sub.ProperDeadLetterQueue) (h : Once config sub s)
include hlimit hprop h

theorem once_refuse {i : ℕ} (hget : s.outstanding[i]? = some copy)
    (hs : refuse config sub { s with outstanding := s.outstanding.eraseIdx i } copy false
      receiving = s') : Once config sub s' := by
  have hvalid := h.valid copy (mem_of_getElem? hget)
  have hrest : ∀ c ∈ s.outstanding.eraseIdx i, c.Valid config := Pool.forall_eraseIdx h.valid
  have hunan : ∀ root, (s.outstanding.eraseIdx i).countP (fun c => c.root == root) +
        (if copy.root = root then 1 else 0) = s.unanswered root := unanswered_eraseIdx hget
  by_cases hdlq : sub.deadLetterQueue = ""
  · rw [refuse_of_no_deadLetter hlimit hdlq] at hs
    subst hs
    refine ⟨h.redeliveryCh, h.delayed, fun hne => absurd hdlq hne, hrest, ?_, h.deliveries,
      fun hne => absurd hdlq hne, h.quiet⟩
    intro root hle
    obtain ⟨hdeliv, hdead, hnone⟩ := h.unsent root hle
    have hleft := hunan root
    rw [hnone] at hleft
    exact ⟨hdeliv, hdead, Nat.eq_zero_of_add_eq_zero_right hleft⟩
  rw [refuse_of_deadLetter (s := { s with outstanding := s.outstanding.eraseIdx i }) hlimit
    hprop hdlq (h.retries hdlq copy.event.id) hvalid] at hs
  have hdead : ∀ root, s'.deadLetters root =
      s.deadLetters root + if copy.root = root then 1 else 0 := by
    simp [← hs, deadLetters, count_cons]
  have hdeliv : ∀ root, s'.deliveries root = s.deliveries root := by
    simp [← hs, deliveries]
  have hansw : ∀ root, s'.deadLetters root + s'.unanswered root = s'.deliveries root := by
    intro root
    have hleft : s'.unanswered root + (if copy.root = root then 1 else 0) = s.unanswered root := by
      rw [← hs]
      exact hunan root
    have hold := h.answered hdlq root
    rw [hdeliv, hdead]
    omega
  subst hs
  refine ⟨h.redeliveryCh, h.delayed, ?_, hrest, ?_, ?_, ?_, ?_⟩
  · intro _ id
    rw [FinMap.lookup_erase_eq, FinMap.lookup_insert_eq]
    split
    · rfl
    · exact h.retries hdlq id
  · intro root hle
    obtain ⟨hnever, hnot, hnone⟩ := h.unsent root (le_of_succ_le hle)
    have hleft := hunan root
    rw [hnone] at hleft
    refine ⟨(hdeliv root).trans hnever, ?_, Nat.eq_zero_of_add_eq_zero_right hleft⟩
    refine (hdead root).trans ?_
    omega
  · intro root
    exact le_trans (le_of_eq (hdeliv root)) (h.deliveries root)
  · exact fun _ => hansw
  · refine pairwise_cons.mpr ⟨?_, h.quiet⟩
    intro earlier _ root _ heq
    cases heq

theorem once_step {action : Action} (hok : ContextLive s action)
    (hs : step config sub s action = some s') : Once config sub s' := by
  cases action with
  | send =>
    obtain ⟨hvalid, rfl⟩ := step_send hs
    exact once_notify h rfl rfl hvalid
  | nack =>
    obtain ⟨copy, hget, rfl⟩ := Option.map_eq_some_iff.mp hs
    cases hok
    exact once_refuse hlimit hprop h hget rfl
  | resend =>
    simp [step, h.delayed] at hs
  | redeliver =>
    simp [step, h.redeliveryCh] at hs

end

def refused (id : ID) : MessageEvent := ⟨id, "events", [0], ∅⟩

theorem send_refused (hsize : 0 < config.maxMessageSize) :
    send config { topic := "events" } s false "events" [0] ∅ root = .ok { s with
        nextID := s.nextID + 1
        outstanding := s.outstanding ++ [⟨refused s.nextID, root⟩]
        log := .delivered root :: s.log } := by
  have hvalid : validateSendRequest config "events" [0] ∅ = .ok () :=
    validateSendRequest_eq_ok.mpr ⟨by decide, by decide, hsize, by decide⟩
  rw [send_eq_ok.mpr ⟨rfl, hvalid, rfl⟩]
  rfl

theorem refuse_first (hlimit : 1 < config.retryMax)
    (hfirst : s.retries.lookup copy.event.id = none) :
    ∃ ch, refuse config sub s copy ctxErr receiving = { s with
        retries := s.retries.insert copy.event.id 1
        redeliveryCh := ch
        delayed := s.delayed ++ [copy] } := by
  unfold refuse
  simp only [hfirst, Option.getD_none, zero_add, if_neg (not_le.mpr hlimit)]
  exact ⟨_, rfl⟩

theorem step_resend (hsize : 0 < config.maxMessageSize) {id : ID}
    (hdelayed : s.delayed = [⟨refused id, root⟩]) :
    (system config { topic := "events" }).step s (.resend 0 false) = some { s with
        nextID := s.nextID + 1
        outstanding := s.outstanding ++ [⟨refused s.nextID, root⟩]
        delayed := []
        log := .delivered root :: s.log } := by
  simp only [system, step, hdelayed, getElem?_cons_zero, Option.map_some, eraseIdx_cons_zero,
    refused, send_refused hsize]

theorem exists_deliveries (hlimit : 1 < config.retryMax) (hsize : 0 < config.maxMessageSize)
    (k : ℕ) :
    ∃ s id, (system config { topic := "events" }).ReachableWith ContextLive s ∧
      s.outstanding = [⟨refused id, 0⟩] ∧ s.delayed = [] ∧ id < s.nextID ∧
      (∀ id', id ≤ id' → s.retries.lookup id' = none) ∧ s.deliveries 0 = k + 1 := by
  induction k with
  | zero =>
    have hstep : (system config { topic := "events" }).step initial (.send [0] ∅) =
        some ⟨1, ∅, [⟨refused 0, 0⟩], [], [], [.delivered 0]⟩ := by
      simp only [system, step]
      rw [send_refused hsize]
      rfl
    have hlive : ContextLive initial (.send [0] ∅) := trivial
    exact ⟨_, 0, (TransitionSystem.ReachableWith.init rfl).step hlive hstep, rfl, rfl,
      Nat.zero_lt_one, fun _ _ => rfl, rfl⟩
  | succ k ih =>
    obtain ⟨s, id, hreach, hout, hdelayed, hlt, hretries, hcount⟩ := ih
    -- the delivery is refused, and the goroutine that this starts delivers the payload again
    obtain ⟨ch, hnack⟩ : ∃ ch, (system config { topic := "events" }).step s (.nack 0 false false) =
        some { s with
          outstanding := []
          retries := s.retries.insert id 1
          redeliveryCh := ch
          delayed := [⟨refused id, 0⟩] } := by
      obtain ⟨ch, hrefuse⟩ := @refuse_first config { topic := "events" }
        { s with outstanding := [] } ⟨refused id, 0⟩ false false hlimit (hretries id le_rfl)
      rw [hdelayed] at hrefuse
      refine ⟨ch, ?_⟩
      simp only [system, step, hout, getElem?_cons_zero, Option.map_some, eraseIdx_cons_zero,
        hdelayed, hrefuse, nil_append]
      rfl
    have hlive : ∀ t, ContextLive t (.nack 0 false false) := fun _ => rfl
    have hlive' : ∀ t, ContextLive t (.resend 0 false) := fun _ => trivial
    refine ⟨_, s.nextID, (hreach.step (hlive s) hnack).step (hlive' _)
      (step_resend hsize rfl), rfl, rfl,
      lt_succ_self _, ?_, ?_⟩
    · intro id' hle
      have hgt : id < id' := lt_of_lt_of_le hlt hle
      rw [FinMap.lookup_insert_eq, if_neg (ne_of_gt hgt)]
      exact hretries id' (le_of_lt hgt)
    · have hlog : (Mark.delivered 0 :: s.log).count (.delivered 0) = s.deliveries 0 + 1 := by
        simp [deliveries]
      exact hlog.trans (by rw [hcount])

theorem eq_initial_of_no_size {ok : State → Action → Prop} (hsize : config.maxMessageSize = 0)
    (h : (system config sub).ReachableWith ok s) : s = initial := by
  refine TransitionSystem.ReachableWith.invariant (fun _ hs => hs) ?_ h
  rintro s action s' rfl _ hs
  cases action with
  | send =>
    obtain ⟨_, hpay, hlen, _⟩ := validateSendRequest_eq_ok.mp (step_send hs).1
    rw [hsize] at hlen
    exact absurd (length_eq_zero_iff.mp (le_zero.mp hlen)) hpay
  | nack | resend | redeliver => cases hs

/-- For a subscriber that refuses every delivery, with a proper dead-letter topic if it has one and
contexts that last, deliveries are bounded exactly when the first refusal is the last. -/
theorem bounded_iff_retryMax_eq_one (config : QueueConfig) (hmin : 1 ≤ config.retryMax) :
    (∀ sub : Subscriber, sub.ProperDeadLetterQueue →
      ∀ s, (system config sub).ReachableWith ContextLive s → Bounded config sub s) ↔
        config.retryMax = 1 ∨ config.maxMessageSize = 0 := by
  constructor
  · intro h
    by_contra hne
    push Not at hne
    have hlimit : 1 < config.retryMax := by omega
    have hsize : 0 < config.maxMessageSize := by omega
    obtain ⟨s, id, hreach, _, _, _, _, hcount⟩ := exists_deliveries hlimit hsize config.retryMax
    have hbound := (h _ (fun hdlq => absurd rfl hdlq) s hreach).deliveries 0
    omega
  · rintro (hlimit | hsize) sub hprop s hreach
    · have hinv : Once config sub s := hreach.invariant (fun _ hs => hs ▸ once_initial)
        fun _ _ _ hs hok => once_step hlimit hprop hs hok
      exact hinv.bounded hlimit
    · rw [eq_initial_of_no_size hsize hreach]
      refine ⟨fun _ => zero_le _, fun _ root => ⟨zero_le 1, fun h => ?_⟩, .nil⟩
      have hzero : initial.deliveries root = 0 := rfl
      omega

/-- A message is delivered and refused, and the dead-letter topic has it. -/
theorem bounded_once :
    ∃ s, (system ⟨1000, 256, 1⟩ { topic := "events", deadLetterQueue := "dead" }).ReachableWith
        ContextLive s ∧ s.log = [.deadLettered 0, .delivered 0] ∧
      Bounded ⟨1000, 256, 1⟩ { topic := "events", deadLetterQueue := "dead" } s := by
  obtain ⟨s, hreach, hlog⟩ := TransitionSystem.exists_reachableWith
    (S := system ⟨1000, 256, 1⟩ { topic := "events", deadLetterQueue := "dead" }) ContextLive
    (fun s => s.log = [.deadLettered 0, .delivered 0]) [.send [0] ∅, .nack 0 false false] rfl
    (by decide)
  refine ⟨s, hreach, hlog, ?_⟩
  exact (bounded_iff_retryMax_eq_one ⟨1000, 256, 1⟩ (by decide)).mpr (.inl rfl)
    { topic := "events", deadLetterQueue := "dead" } (fun _ => ⟨by decide, by decide⟩) s hreach

/-- With a limit of two, the message goes to the dead-letter topic after its second delivery, and
then the goroutine that the first refusal started delivers it once more. -/
def deliverTwiceAndAgain : List Action :=
  [.send [0] ∅, .nack 0 false false, .redeliver, .nack 0 false false, .resend 0 false]

theorem exists_delivered_after_deadLetter :
    ∃ s, (system ⟨1000, 256, 2⟩ { topic := "events", deadLetterQueue := "dead" }).ReachableWith
        ContextLive s ∧ s.deliveries 0 = 3 ∧
      s.log = [.delivered 0, .deadLettered 0, .delivered 0, .delivered 0] :=
  TransitionSystem.exists_reachableWith ContextLive _ deliverTwiceAndAgain rfl (by decide)

theorem not_bounded_twice :
    ¬ ∀ s, (system ⟨1000, 256, 2⟩ { topic := "events", deadLetterQueue := "dead" }).ReachableWith
        ContextLive s →
      Bounded ⟨1000, 256, 2⟩ { topic := "events", deadLetterQueue := "dead" } s := by
  intro h
  obtain ⟨s, hreach, hcount, _⟩ := exists_delivered_after_deadLetter
  have hbound := (h s hreach).deliveries 0
  rw [hcount] at hbound
  exact absurd hbound (by decide)

end Formicary.Queue.ClientChannel

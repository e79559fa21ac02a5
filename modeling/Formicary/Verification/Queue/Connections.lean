import Formicary.Model.Queue.WebSocketConnections
import Formicary.Verification.Queue.Topics

/-! # Remote subscriptions and their connections

The read pump removes its connection last of all, but a frame may name any subscription. -/

namespace Formicary.Queue

open Function FinMap

namespace WSServer

variable {srv srv' : WSServer} {name topic : String} {id subID : ID} {rs rs' : WSRemoteSub}

def Holds (srv : WSServer) (name : String) (id : ID) (rs : WSRemoteSub) : Prop :=
  ∃ ref ∈ srv.topics.lookup name, (srv.objects ref).remoteSubs.lookup id = some rs

def Named (srv : WSServer) : Prop :=
  ∀ name, ∀ ref ∈ srv.topics.lookup name, ref < srv.made ∧ (srv.objects ref).name = name

/-- Topics keep their names, and no subscription is added. -/
structure Shrinks (srv srv' : WSServer) : Prop where
  named : srv'.Named
  made : srv.made ≤ srv'.made
  name : ∀ ref < srv.made, (srv'.objects ref).name = (srv.objects ref).name
  holds : ∀ name id rs, srv'.Holds name id rs → srv.Holds name id rs

theorem Shrinks.refl (h : srv.Named) : Shrinks srv srv :=
  ⟨h, le_rfl, fun _ _ => rfl, fun _ _ _ => id⟩

theorem Shrinks.trans {srv'' : WSServer} (h : Shrinks srv srv') (h' : Shrinks srv' srv'') :
    Shrinks srv srv'' where
  named := h'.named
  made := Nat.le_trans h.made h'.made
  name ref href := (h'.name ref (Nat.lt_of_lt_of_le href h.made)).trans (h.name ref href)
  holds name id rs hrs := h.holds name id rs (h'.holds name id rs hrs)

section

variable (h : srv.Named)
include h

theorem shrinks_modify {ref : ℕ} {f : WSTopic → WSTopic}
    {topics : FinMap String ℕ} (hname : ∀ t, (f t).name = t.name)
    (hsubs : ∀ t id rs, (f t).remoteSubs.lookup id = some rs → t.remoteSubs.lookup id = some rs)
    (htops : ∀ name, ∀ ref ∈ topics.lookup name, ref ∈ srv.topics.lookup name) :
    Shrinks srv { srv.modify ref f with topics := topics } := by
  have hkeeps : ∀ ref', ((srv.modify ref f).objects ref').name = (srv.objects ref').name :=
    modify_keeps WSTopic.name (hname _)
  refine ⟨fun name ref' href' => ?_, le_rfl, fun ref' _ => hkeeps ref', ?_⟩
  · have hmade := h name ref' (htops name ref' href')
    exact ⟨hmade.1, (hkeeps ref').trans hmade.2⟩
  rintro name id rs ⟨ref', href', hrs⟩
  refine ⟨ref', htops name ref' href', ?_⟩
  simp only [objects_modify] at hrs
  split at hrs
  · next heq => exact heq ▸ hsubs _ id rs hrs
  · exact hrs

theorem holds_getOrCreateTopic :
    (srv.getOrCreateTopic topic).2.Holds name id rs ↔ srv.Holds name id rs := by
  rcases getOrCreateTopic_cases srv topic with ⟨ref, _, heq⟩ | ⟨hnone, heq⟩
  · rw [heq]
  rw [heq]
  simp only [Holds, lookup_insert_eq]
  by_cases hname : name = topic
  · subst hname
    simp [hnone, WSTopic.new, AList.lookup_empty]
  simp only [if_neg hname]
  refine exists_congr fun ref => and_congr_right fun href => ?_
  rw [update_of_ne (Nat.ne_of_lt (h name ref href).1)]

theorem shrinks_getOrCreateTopic (topic : String) : Shrinks srv (srv.getOrCreateTopic topic).2 := by
  have hholds : ∀ name id rs, (srv.getOrCreateTopic topic).2.Holds name id rs →
      srv.Holds name id rs := fun _ _ _ => (holds_getOrCreateTopic h).mp
  rcases getOrCreateTopic_cases srv topic with ⟨ref, _, heq⟩ | ⟨_, heq⟩
  · rw [heq]
    exact .refl h
  rw [heq] at hholds ⊢
  refine ⟨fun name ref href => ?_, Nat.le_succ _, fun ref href => ?_, hholds⟩
  · simp only [lookup_insert_eq] at href
    split at href
    · next hname =>
      cases href
      simp [hname, WSTopic.new]
    · obtain ⟨hmade, hname⟩ := h name ref href
      simp [update_of_ne (Nat.ne_of_lt hmade), hname, Nat.lt_succ_of_lt hmade]
  · simp [update_of_ne (Nat.ne_of_lt href)]

theorem holds_removeRemote : (srv.removeRemote topic subID).Holds name id rs ↔
      srv.Holds name id rs ∧ ¬ (name = topic ∧ id = subID) := by
  unfold removeRemote
  cases htopic : srv.topics.lookup topic with
  | none =>
    refine (and_iff_left_of_imp ?_).symm
    rintro ⟨ref, href, _⟩ ⟨rfl, _⟩
    simp [htopic] at href
  | some ref =>
    have hsame : ∀ ref' ∈ srv.topics.lookup name, ref' = ref ↔ name = topic := by
      refine fun ref' href' => ⟨fun heq => ?_, fun heq => ?_⟩
      · rw [← (h name ref' href').2, heq, (h topic ref htopic).2]
      · rw [heq, htopic] at href'
        exact (Option.some.inj href').symm
    constructor
    · rintro ⟨ref', href', hrs⟩
      rw [objects_modify] at hrs
      split at hrs
      · next heq =>
        simp only [lookup_erase_eq] at hrs
        split at hrs
        · cases hrs
        next hne => exact ⟨⟨ref', href', heq ▸ hrs⟩, fun hboth => hne hboth.2⟩
      · next hne => exact ⟨⟨ref', href', hrs⟩, fun hboth => hne ((hsame ref' href').mpr hboth.1)⟩
    · rintro ⟨⟨ref', href', hrs⟩, hother⟩
      refine ⟨ref', href', ?_⟩
      rw [objects_modify]
      split
      · next heq =>
        have hne : id ≠ subID := fun hid => hother ⟨(hsame ref' href').mp heq, hid⟩
        simp only [lookup_erase_eq, if_neg hne]
        exact heq ▸ hrs
      · exact hrs

theorem shrinks_removeRemote (topic : String) (subID : ID) :
    Shrinks srv (srv.removeRemote topic subID) := by
  unfold removeRemote
  cases srv.topics.lookup topic with
  | none => exact .refl h
  | some =>
    refine shrinks_modify (f := fun t => { t with remoteSubs := t.remoteSubs.erase subID }) h
      (fun _ => rfl) (fun t id rs hrs => ?_) fun _ _ href => href
    simp only [lookup_erase_eq] at hrs
    split at hrs
    · cases hrs
    · exact hrs

end

theorem lookup_erase_topic {topics : FinMap String ℕ} {ref : ℕ}
    (h : ref ∈ (topics.erase topic).lookup name) : ref ∈ topics.lookup name := by
  rw [lookup_erase_eq] at h
  split at h
  · cases h
  · exact h

theorem shrinks_maybeDeleteTopic (h : srv.Named) (topic : String) :
    Shrinks srv (srv.maybeDeleteTopic topic) := by
  unfold maybeDeleteTopic
  split
  · exact .refl h
  split
  · refine ⟨fun name ref href => h name ref (lookup_erase_topic href), Nat.le_refl _,
      fun _ _ => rfl, ?_⟩
    rintro name id rs ⟨ref, href, hrs⟩
    exact ⟨ref, lookup_erase_topic href, hrs⟩
  · exact .refl h

theorem shrinks_unSubscribe (h : srv.Named) (topic : String) (id : ID) :
    Shrinks srv (srv.unSubscribe topic id) := by
  rcases unSubscribe_cases srv topic id with heq | ⟨ref, _, _, heq⟩
  · rw [heq]
    exact .refl h
  rw [heq]
  refine shrinks_modify h (fun _ => rfl) (fun _ _ _ hrs => hrs) fun name ref href => ?_
  split at href
  · exact lookup_erase_topic href
  · exact href

theorem holds_recordRemote {ref : ℕ} : (srv.recordRemote ref rs').Holds name id rs ↔
      srv.topics.lookup name = some ref ∧ id = rs'.id ∧ rs = rs' ∨
        srv.Holds name id rs ∧ ¬ (srv.topics.lookup name = some ref ∧ id = rs'.id) := by
  simp only [Holds, recordRemote, objects_modify]
  constructor
  · rintro ⟨ref', href', hrs⟩
    split at hrs
    · next heq =>
      simp only [lookup_insert_eq] at hrs
      split at hrs
      · next hid => exact .inl ⟨heq ▸ href', hid, (Option.some.inj hrs).symm⟩
      · next hid => exact .inr ⟨⟨ref', href', heq ▸ hrs⟩, fun hboth => hid hboth.2⟩
    · next hne =>
      refine .inr ⟨⟨ref', href', hrs⟩, fun hboth => hne ?_⟩
      exact Option.some.inj (href'.symm.trans hboth.1)
  · rintro (⟨href, rfl, rfl⟩ | ⟨⟨ref', href', hrs⟩, hother⟩)
    · exact ⟨ref, href, by simp⟩
    refine ⟨ref', href', ?_⟩
    split
    · next heq =>
      have hne : id ≠ rs'.id := fun hid => hother ⟨heq ▸ href', hid⟩
      simp only [lookup_insert_eq, if_neg hne]
      exact heq ▸ hrs
    · exact hrs

end WSServer

namespace Connections

open WSServer

variable {s s' : State} {srv : WSServer} {c : ID}

theorem shrinks_removeSubs (h : srv.Named) (subs : List (String × ID)) :
    Shrinks srv (removeSubs srv subs) ∧
      ∀ name id rs, (removeSubs srv subs).Holds name id rs → (name, id) ∉ subs := by
  induction subs generalizing srv with
  | nil => exact ⟨.refl h, fun _ _ _ _ => List.not_mem_nil⟩
  | cons e subs ih =>
    have hrem := shrinks_removeRemote h e.1 e.2
    have hdel := shrinks_maybeDeleteTopic hrem.named e.1
    obtain ⟨hrest, hgone⟩ := ih hdel.named
    refine ⟨(hrem.trans hdel).trans hrest, fun name id rs hrs hmem => ?_⟩
    rcases List.mem_cons.mp hmem with rfl | hmem
    · have hheld := hdel.holds _ _ _ (hrest.holds _ _ _ hrs)
      exact ((holds_removeRemote h).mp hheld).2 ⟨rfl, rfl⟩
    · exact hgone name id rs hrs hmem

def Conn.Tracks (conn : Conn) (e : String × ID) : Prop :=
  match conn.reading with
  | .waiting | .found .. => e ∈ conn.subs
  | .stored topic id => e = (topic, id) ∨ e ∈ conn.subs
  | .deleted topic subID => e ≠ (topic, subID) ∧ e ∈ conn.subs
  | .removing subs => e ∈ subs
  | .ended => False

structure Inv (s : State) : Prop where
  named : s.server.Named
  fresh : ∀ name id rs, s.server.Holds name id rs → id < s.nextID
  tracked : ∀ name id rs, s.server.Holds name id rs → (s.conns rs.conn).Tracks (name, id)
  found : ∀ c ref topic group, (s.conns c).reading = .found ref topic group →
    ref < s.server.made ∧ (s.server.objects ref).name = topic

theorem Inv.server (h : Inv s) (hs : Shrinks s.server srv) : Inv { s with server := srv } where
  named := hs.named
  fresh name id rs hrs := h.fresh name id rs (hs.holds name id rs hrs)
  tracked name id rs hrs := h.tracked name id rs (hs.holds name id rs hrs)
  found c ref topic group hfound := by
    obtain ⟨hmade, hname⟩ := h.found c ref topic group hfound
    exact ⟨Nat.lt_of_lt_of_le hmade hs.made, (hs.name ref hmade).trans hname⟩

theorem Inv.advance (h : Inv s) (hs : Shrinks s.server srv) {f : Conn → Conn}
    (htrack : ∀ name id rs, srv.Holds name id rs → (s.conns c).Tracks (name, id) →
      (f (s.conns c)).Tracks (name, id))
    (hfound : ∀ ref topic group, (f (s.conns c)).reading = .found ref topic group →
      ref < srv.made ∧ (srv.objects ref).name = topic) :
    Inv { s.setConn c f with server := srv } := by
  have hserver := h.server hs
  refine ⟨hserver.named, hserver.fresh, fun name id rs hrs => ?_, fun c' ref topic group => ?_⟩
  · have hold := hserver.tracked name id rs hrs
    simp only [State.setConn, update_apply]
    split
    · next heq => exact htrack name id rs hrs (heq ▸ hold)
    · exact hold
  · simp only [State.setConn, update_apply]
    split
    · exact hfound ref topic group
    · exact hserver.found c' ref topic group

theorem Inv.setConn (h : Inv s) {f : Conn → Conn}
    (htrack : ∀ e, (s.conns c).Tracks e → (f (s.conns c)).Tracks e)
    (hfound : ∀ ref topic group, (f (s.conns c)).reading = .found ref topic group →
      ref < s.server.made ∧ (s.server.objects ref).name = topic) : Inv (s.setConn c f) :=
  h.advance (.refl h.named) (fun _ _ _ _ => htrack _) hfound

variable {a : Action}

theorem Inv.store {ref : ℕ} {topic group : String} (h : Inv s)
    (hread : (s.conns c).reading = .found ref topic group) :
    Inv { s.setConn c fun conn => { conn with reading := .stored topic s.nextID } with
      server := s.server.recordRemote ref ⟨s.nextID, c, topic, group⟩
      nextID := s.nextID + 1 } := by
  obtain ⟨hmade, hname⟩ := h.found c ref topic group hread
  have hnames : ∀ ref',
      ((s.server.recordRemote ref ⟨s.nextID, c, topic, group⟩).objects ref').name =
      (s.server.objects ref').name := modify_keeps WSTopic.name rfl
  refine ⟨fun name ref' href' => ?_, fun name id rs hrs => ?_, fun name id rs hrs => ?_,
    fun c' ref' topic' group' hfound => ?_⟩
  · rw [hnames]
    exact h.named name ref' href'
  · rcases holds_recordRemote.mp hrs with ⟨_, rfl, _⟩ | ⟨hold, _⟩
    · exact Nat.lt_succ_self _
    · exact Nat.lt_succ_of_lt (h.fresh name id rs hold)
  · simp only [State.setConn, update_apply]
    rcases holds_recordRemote.mp hrs with ⟨hlook, rfl, rfl⟩ | ⟨hold, _⟩
    · have heq : name = topic := (h.named name ref hlook).2.symm.trans hname
      simp [Conn.Tracks, heq]
    have htrack := h.tracked name id rs hold
    split
    · next heq =>
      rw [heq, Conn.Tracks, hread] at htrack
      exact .inr htrack
    · exact htrack
  · simp only [State.setConn, update_apply] at hfound
    rw [hnames]
    split at hfound
    · cases hfound
    · exact h.found c' ref' topic' group' hfound

theorem inv_step (h : Inv s) (hs : step s a = some s') : Inv s' := by
  cases a with
  | subscribe c topic =>
    simp only [step] at hs
    split at hs <;> cases hs
    next hread =>
    have hshr := shrinks_getOrCreateTopic h.named topic
    refine h.advance hshr (fun name id rs _ ht => ?_) fun ref topic' group' hfound => ?_
    · simpa only [Conn.Tracks, hread] using ht
    · cases hfound
      exact hshr.named topic _ (lookup_getOrCreateTopic s.server topic)
  | store =>
    simp only [step] at hs
    split at hs <;> cases hs
    next hread => exact h.store hread
  | addSub =>
    simp only [step] at hs
    split at hs <;> cases hs
    next hread =>
    refine h.setConn (fun e ht => ?_) (by simp)
    simp only [Conn.Tracks, hread] at ht
    simp only [Conn.Tracks, List.mem_append, List.mem_singleton]
    exact ht.symm
  | unsubscribe c topic subID =>
    simp only [step] at hs
    split at hs <;> cases hs
    next hread =>
    refine h.advance (shrinks_removeRemote h.named topic subID) (fun name id rs hrs ht => ?_)
      (by simp)
    simp only [Conn.Tracks, hread] at ht ⊢
    have hother := ((holds_removeRemote h.named).mp hrs).2
    exact ⟨fun heq => hother (Prod.mk.inj heq), ht⟩
  | removeSub =>
    simp only [step] at hs
    split at hs <;> cases hs
    next hread =>
    refine h.setConn (fun e ht => ?_) (by simp)
    simp only [Conn.Tracks, hread] at ht ⊢
    exact (List.mem_erase_of_ne ht.1).mpr ht.2
  | readFails =>
    simp only [step] at hs
    split at hs <;> cases hs
    next hread =>
    refine h.setConn (fun e ht => ?_) (by simp)
    simpa only [Conn.Tracks, hread] using ht
  | readRemoves =>
    simp only [step] at hs
    split at hs <;> cases hs
    next hread =>
    obtain ⟨hshr, hgone⟩ := shrinks_removeSubs h.named _
    refine h.advance hshr (fun name id rs hrs ht => ?_) (by simp)
    simp only [Conn.Tracks, hread] at ht
    exact hgone name id rs hrs ht
  | writeFails c =>
    cases hs
    exact h.setConn (fun _ ht => ht) (h.found c)
  | writeRemoves c =>
    simp only [step] at hs
    split at hs <;> cases hs
    next subs _ =>
    have hshr := (shrinks_removeSubs h.named subs).1
    exact h.advance hshr (fun _ _ _ _ ht => ht) ((h.server hshr).found c)
  | createTopic topic =>
    cases hs
    exact h.server (shrinks_getOrCreateTopic h.named topic)
  | recordLocal ref id =>
    cases hs
    exact h.server (shrinks_modify (f := fun t => { t with localSubs := t.localSubs.insert id () })
      h.named (fun _ => rfl) (fun _ _ _ hrs => hrs) fun _ _ href => href)
  | unSubscribe topic id =>
    cases hs
    exact h.server (shrinks_unSubscribe h.named topic id)

theorem inv_of_reachable (h : system.Reachable s) : Inv s := by
  induction h with
  | init hs =>
    cases hs
    have hnone : ∀ name id rs, ¬ State.initial.server.Holds name id rs := by
      rintro name id rs ⟨ref, href, _⟩
      cases href
    refine ⟨nofun, ?_, ?_, nofun⟩
    · exact fun name id rs hrs => absurd hrs (hnone name id rs)
    · exact fun name id rs hrs => absurd hrs (hnone name id rs)
  | step _ _ he ih => exact inv_step ih he

def Action.frame : Action → Option ID
  | .subscribe c .. | .store c | .addSub c | .unsubscribe c .. | .removeSub c => some c
  | .readFails _ | .readRemoves _ | .writeFails _ | .writeRemoves _ | .createTopic _
  | .recordLocal .. | .unSubscribe .. => none

def KeepsOthers (s : State) (a : Action) (s' : State) : Prop :=
  ∀ c ∈ a.frame, ∀ name id rs, s.server.Holds name id rs → rs.conn ≠ c → s'.server.Holds name id rs

/-- An unsubscribe frame names no subscription of another connection. -/
def NamesOwn (s : State) : Action → Prop
  | .unsubscribe c topic subID => ∀ rs, s.server.Holds topic subID rs → rs.conn = c
  | _ => True

theorem keepsOthers_iff (h : Inv s) (hs : step s a = some s') :
    KeepsOthers s a s' ↔ NamesOwn s a := by
  cases a with
  | subscribe =>
    simp only [step] at hs
    split at hs <;> cases hs
    exact iff_of_true (fun _ _ _ _ _ hrs _ => (holds_getOrCreateTopic h.named).mpr hrs) trivial
  | store =>
    simp only [step] at hs
    split at hs <;> cases hs
    refine iff_of_true (fun _ _ name id rs hrs _ => ?_) trivial
    refine holds_recordRemote.mpr (.inr ⟨hrs, fun hnew => ?_⟩)
    exact Nat.ne_of_lt (h.fresh name id rs hrs) hnew.2
  | unsubscribe c =>
    simp only [step] at hs
    split at hs <;> cases hs
    constructor
    · intro hkeeps rs hrs
      by_contra hne
      exact ((holds_removeRemote h.named).mp (hkeeps c rfl _ _ rs hrs hne)).2 ⟨rfl, rfl⟩
    · rintro hown c' hc' name id rs hrs hne
      cases hc'
      refine (holds_removeRemote h.named).mpr ⟨hrs, ?_⟩
      rintro ⟨rfl, rfl⟩
      exact hne (hown rs hrs)
  | addSub | removeSub =>
    simp only [step] at hs
    split at hs <;> cases hs
    exact iff_of_true (fun _ _ _ _ _ hrs _ => hrs) trivial
  | _ => exact iff_of_true (by simp [KeepsOthers, Action.frame]) trivial

/-- A connection whose read pump has ended has no subscription in any topic. The sections of a frame
leave the subscriptions of other connections alone exactly if the frame does not ask to remove one
of them. -/
theorem remoteSubs_iff_names_own (s : State) :
    (system.Reachable s → ∀ c, (s.conns c).reading = .ended →
      ∀ name id rs, s.server.Holds name id rs → rs.conn ≠ c) ∧
    (system.Reachable s → ∀ a s', step s a = some s' → (KeepsOthers s a s' ↔ NamesOwn s a)) := by
  refine ⟨fun h c hended name id rs hrs heq => ?_, fun h a s' hs => ?_⟩
  · have htrack := (inv_of_reachable h).tracked name id rs hrs
    simp [heq, Conn.Tracks, hended] at htrack
  · exact keepsOthers_iff (inv_of_reachable h) hs

theorem unsubscribed_by_another :
    ∃ s a s', system.Reachable s ∧ step s a = some s' ∧ ¬ KeepsOthers s a s' := by
  refine ⟨_, .unsubscribe 0 "tasks" 0, _, .step (a := .store 1) (.step
    (a := .subscribe 1 "tasks" "") (.init rfl) trivial rfl) trivial rfl, rfl, fun hkeeps => ?_⟩
  obtain ⟨ref, href, hrs⟩ := hkeeps 0 rfl "tasks" 0 ⟨0, 1, "tasks", ""⟩ ⟨0, rfl, rfl⟩ (by decide)
  cases href
  cases hrs

end Connections

end Formicary.Queue

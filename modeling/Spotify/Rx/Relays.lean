import Spotify.Lib.Refinement
import Spotify.Rx.Subjects

/-!
# Spotify.Rx.Relays — `PublishRelay` and `BehaviorRelay`

A relay hands `accept` to the `onNext` of its subject and has neither stop events nor `dispose`, so its subject
stays open: the `try!` of `BehaviorRelay.value` is safe, and it gives what was accepted last (`value_accepted`).
That is not always what a subscriber was told last: of two calls of `accept` on different threads, the later one
may reach it first.  Where each call of `accept` has told everybody before the next one is made, those who have
been told everything were told the value of the relay last (`latest_told`).
-/

namespace Spotify

inductive RelayLabel (ε O : Type) where
  | accept (event : ε)
  | subscribe (observer : O)
  /-- the disposable of a subscription -/
  | dispose (key : BagKey)
  /-- a call of `accept` gets to its next observer -/
  | tell (send : ℕ)
  deriving DecidableEq

namespace RelayLabel

variable {ε O : Type}

def toSubject : RelayLabel ε O → SubjectLabel ε O
  | .accept event => .on (.next event)
  | .subscribe observer => .subscribe observer
  | .dispose key => .unsubscribe key
  | .tell send => .tell send

def accepted : RelayLabel ε O → Option ε
  | .accept event => some event
  | _ => none

def subscribes : RelayLabel ε O → Bool
  | .subscribe _ => true
  | _ => false

/-- Who is subscribed after the labels `ls`, and the calls of `accept` with those who were. -/
def topic (ls : List (RelayLabel ε O)) : Topic ε O := (ls.map toSubject).foldl Topic.step Topic.launch

theorem closed_foldl (t : Topic ε O) (ls : List (RelayLabel ε O)) :
    ((ls.map toSubject).foldl Topic.step t).audience.closed = t.audience.closed := by
  induction ls generalizing t with
  | nil => rfl
  | cons l ls ih =>
    rw [List.map_cons, List.foldl_cons, ih]
    cases l with
    | accept | dispose | tell => rfl
    | subscribe observer =>
      show (t.audience.subscribe observer).closed = t.audience.closed
      unfold Audience.subscribe
      split <;> rfl

theorem countP_toSubject (ls : List (RelayLabel ε O)) :
    (ls.map toSubject).countP Broadcast.isSubscribe = ls.countP subscribes := by
  rw [List.countP_map]
  congr 1
  funext l
  cases l <;> rfl

/-- Each call of `accept` tells the one subscriber before the next call is made. -/
def atOnce : ℕ → List ε → List (RelayLabel ε O)
  | _, [] => []
  | send, event :: events => .accept event :: .tell send :: atOnce (send + 1) events

theorem accepted_atOnce (send : ℕ) (events : List ε) :
    (atOnce send events : List (RelayLabel ε O)).filterMap accepted = events := by
  induction events generalizing send with
  | nil => rfl
  | cons event events ih =>
    show event :: (atOnce (send + 1) events : List (RelayLabel ε O)).filterMap accepted = event :: events
    rw [ih]

end RelayLabel

/-! ### One subscriber -/

namespace Broadcast

variable {S ε O : Type} {ops : SubjectType S ε O} {R : S → Audience O → Prop} {s : Broadcast S ε O} {observer : O}

/-- `observer` is the only one who is subscribed. -/
def Attended (R : S → Audience O → Prop) (observer : O) (s : Broadcast S ε O) : Prop :=
  ∃ a, R s.subject a ∧ a.observers = [observer]

theorem Attended.accept (h : Attended R observer s) (hops : Implements ops R) (order : ValueOrder O) (event : ε)
    (log : List (Notice ε O)) :
    ∃ s', Runs.exec (Runs.logged (Broadcast.step ops order)) (s, log)
        [.on (.next event), .tell s.sends.next] =
          some (s', log ++ [.sent s.sends.next observer (.next event)]) ∧
      Attended R observer s' ∧ s'.sends.next = s.sends.next + 1 := by
  obtain ⟨a, ha, hobservers⟩ := h
  obtain ⟨hdispatch, hkeeps⟩ := hops.on (.next event) ha
  have hcopy : (ops.on (.next event) s.subject).1.dispatch order = [observer] := by
    have hperm := hdispatch order
    rwa [hobservers, List.perm_singleton] at hperm
  have hon : Runs.logged (Broadcast.step ops order) (s, log) (.on (.next event)) =
      some (⟨(ops.on (.next event) s.subject).2, s.sends.start (.next event, [observer])⟩, log) := by
    refine Runs.logged_eq_some.mpr ⟨[], ?_, (List.append_nil log).symm⟩
    rw [Broadcast.step, hcopy]
  refine ⟨⟨(ops.on (.next event) s.subject).2,
    (s.sends.start (.next event, [observer])).update s.sends.next fun _ => (.next event, [])⟩, ?_,
    ⟨a, hkeeps, hobservers⟩, rfl⟩
  rw [Runs.exec_cons_some hon]
  refine (Runs.exec_cons_some (Runs.logged_eq_some.mpr ⟨_, ?_, rfl⟩) _).trans rfl
  rw [Broadcast.step, Pool.find?_start_next]

theorem Attended.exec_atOnce (h : Attended R observer s) (hops : Implements ops R) (order : ValueOrder O)
    (log : List (Notice ε O)) (events : List ε) :
    ∃ s' log', Runs.exec (Runs.logged (Broadcast.step ops order)) (s, log)
        ((RelayLabel.atOnce s.sends.next events).map RelayLabel.toSubject) = some (s', log') ∧
      log'.map Notice.event = log.map Notice.event ++ events.map RxEvent.next ∧ Attended R observer s' := by
  induction events generalizing s log with
  | nil => exact ⟨s, log, rfl, (List.append_nil _).symm, h⟩
  | cons event events ih =>
    obtain ⟨s₁, hs₁, h₁, hnext⟩ := h.accept hops order event log
    obtain ⟨s', log', hs', hlog', h'⟩ := ih h₁ _
    refine ⟨s', log', ?_, ?_, h'⟩
    · rw [hnext] at hs'
      exact (Runs.exec_append_some hs₁ _).trans hs'
    · rw [hlog', List.map_append, List.append_assoc]
      rfl

end Broadcast

/-! ### `PublishRelay` -/

namespace PublishRelay

variable {ε O : Type} {order : ValueOrder O} {s : Broadcast (PublishSubject O ε) ε O} {log : List (Notice ε O)}

def launch : Broadcast (PublishSubject O ε) ε O := Broadcast.launch PublishSubject.init

def step (order : ValueOrder O) (s : Broadcast (PublishSubject O ε) ε O) (l : RelayLabel ε O) :
    Option (Broadcast (PublishSubject O ε) ε O × List (Notice ε O)) :=
  s.step PublishSubject.ops order l.toSubject

theorem exec_toSubject (ls : List (RelayLabel ε O)) : Runs.exec (Runs.logged (step order)) (s, log) ls =
    Runs.exec (Runs.logged (Broadcast.step PublishSubject.ops order)) (s, log)
      (ls.map RelayLabel.toSubject) :=
  Runs.exec_relabel (Runs.logged (Broadcast.step PublishSubject.ops order)) RelayLabel.toSubject (s, log) ls

/-- With one subscriber and no overlaps, what a publish relay accepts is what it tells. -/
theorem accepted_atOnce (order : ValueOrder O) (observer : O) (events : List ε) :
    ∃ s log, Runs.exec (Runs.logged (step order)) (launch, [])
        (.subscribe observer :: RelayLabel.atOnce 0 events) = some (s, log) ∧
      log.map Notice.event = events.map RxEvent.next := by
  have h0 : PublishSubject.Keeps (PublishSubject.init : PublishSubject O ε) Audience.empty :=
    ⟨Bag.refines_init, rfl, rfl, rfl⟩
  have hone : Broadcast.Attended PublishSubject.Keeps observer
      (⟨(PublishSubject.synchronizedSubscribe observer PublishSubject.init).2, Pool.empty⟩ :
        Broadcast (PublishSubject O ε) ε O) :=
    ⟨_, PublishSubject.keeps_subscribe observer h0 (Nat.succ_pos _), rfl⟩
  obtain ⟨s, log, hs, hlog, -⟩ :=
    hone.exec_atOnce PublishSubject.implements order [] events
  refine ⟨s, log, ?_, hlog⟩
  rw [exec_toSubject, List.map_cons]
  exact (Runs.exec_cons_some rfl _).trans hs

end PublishRelay

/-! ### `BehaviorRelay` -/

namespace BehaviorRelay

variable {ε O : Type} {order : ValueOrder O} {s s' : Broadcast (BehaviorSubject O ε) ε O}
  {log log' : List (Notice ε O)}

def launch (value : ε) : Broadcast (BehaviorSubject O ε) ε O := Broadcast.launch (BehaviorSubject.init value)

def step (order : ValueOrder O) (s : Broadcast (BehaviorSubject O ε) ε O) (l : RelayLabel ε O) :
    Option (Broadcast (BehaviorSubject O ε) ε O × List (Notice ε O)) :=
  s.step BehaviorSubject.ops order l.toSubject

/-- `value`, `none` where `try!` traps. -/
def value (s : Broadcast (BehaviorSubject O ε) ε O) : Option ε := s.subject.value.toOption

/-- What new subscribers are told at once. -/
def greeting : Notice ε O → Option (O × RxEvent ε)
  | .greeted observer event => some (observer, event)
  | .sent _ _ _ => none

/-- The value of the relay whenever somebody subscribes. -/
def greetings : ε → List (RelayLabel ε O) → List (O × RxEvent ε)
  | _, [] => []
  | _, .accept event :: ls => greetings event ls
  | value, .subscribe observer :: ls => (observer, .next value) :: greetings value ls
  | value, .dispose _ :: ls | value, .tell _ :: ls => greetings value ls

/-- The subject is open. -/
structure IsOpen (s : Broadcast (BehaviorSubject O ε) ε O) : Prop where
  disposed : s.subject.disposed = false
  stoppedEvent : s.subject.stoppedEvent = none

theorem IsOpen.value_eq (hs : IsOpen s) : value s = some s.subject.element := by
  unfold value BehaviorSubject.value
  rw [hs.disposed, hs.stoppedEvent]
  rfl

theorem IsOpen.accept (hs : IsOpen s) (event : ε) : step order s (.accept event) =
    some (⟨{ s.subject with element := event },
      s.sends.start (.next event, s.subject.observers.dispatch order)⟩, []) := by
  obtain ⟨⟨disposed, element, observers, stoppedEvent⟩, sends⟩ := s
  obtain ⟨rfl, rfl⟩ := hs
  rfl

theorem IsOpen.subscribe (hs : IsOpen s) (observer : O) : step order s (.subscribe observer) =
    some ({ s with subject := { s.subject with observers := (s.subject.observers.insert observer).2 } },
      [.greeted observer (.next s.subject.element)]) := by
  obtain ⟨⟨disposed, element, observers, stoppedEvent⟩, sends⟩ := s
  obtain ⟨rfl, rfl⟩ := hs
  rfl

/-- What a step does to the subject: it stays open, and only `accept` changes its element. -/
theorem IsOpen.step (hs : IsOpen s) {l : RelayLabel ε O} {out : List (Notice ε O)}
    (h : step order s l = some (s', out)) :
    IsOpen s' ∧ s'.subject.element = l.accepted.getD s.subject.element := by
  cases l with
  | accept event =>
    rw [hs.accept event] at h
    cases h
    exact ⟨⟨hs.disposed, hs.stoppedEvent⟩, rfl⟩
  | subscribe observer =>
    rw [hs.subscribe observer] at h
    cases h
    exact ⟨⟨hs.disposed, hs.stoppedEvent⟩, rfl⟩
  | dispose key =>
    obtain ⟨subject, hsubject, hsame⟩ := Option.map_eq_some_iff.mp h
    cases hsame
    have hno : ¬ s.subject.disposed = true := by simp [hs.disposed]
    simp only [BehaviorSubject.ops, BehaviorSubject.synchronizedUnsubscribe, if_neg hno] at hsubject
    obtain ⟨r, -, rfl⟩ := Option.map_eq_some_iff.mp hsubject
    exact ⟨⟨hs.disposed, hs.stoppedEvent⟩, rfl⟩
  | tell send =>
    simp only [BehaviorRelay.step, RelayLabel.toSubject, Broadcast.step] at h
    split at h
    · cases h
      exact ⟨⟨hs.disposed, hs.stoppedEvent⟩, rfl⟩
    · cases h

/-- What a step tells new subscribers. -/
theorem IsOpen.greeting_step (hs : IsOpen s) {l : RelayLabel ε O} {out : List (Notice ε O)}
    (h : BehaviorRelay.step order s l = some (s', out)) (ls : List (RelayLabel ε O)) :
    greetings s.subject.element (l :: ls) =
      out.filterMap greeting ++ greetings s'.subject.element ls := by
  obtain ⟨-, helement⟩ := hs.step h
  cases l with
  | accept event =>
    rw [hs.accept event] at h
    cases h
    rfl
  | subscribe observer =>
    rw [hs.subscribe observer] at h
    cases h
    rfl
  | dispose key =>
    obtain ⟨subject, -, hsame⟩ := Option.map_eq_some_iff.mp h
    cases hsame
    rw [helement]
    rfl
  | tell send =>
    simp only [BehaviorRelay.step, RelayLabel.toSubject, Broadcast.step] at h
    split at h
    · cases h
      rfl
    · cases h

theorem IsOpen.exec (hs : IsOpen s) {ls : List (RelayLabel ε O)}
    (h : Runs.exec (Runs.logged (BehaviorRelay.step order)) (s, log) ls = some (s', log')) :
    IsOpen s' ∧ s'.subject.element = ((ls.filterMap RelayLabel.accepted).getLast?).getD s.subject.element ∧
      log'.filterMap greeting = log.filterMap greeting ++ greetings s.subject.element ls := by
  induction ls generalizing s log with
  | nil =>
    cases h
    exact ⟨hs, rfl, (List.append_nil _).symm⟩
  | cons l ls ih =>
    obtain ⟨u, out, hl, h⟩ := Runs.exec_logged_cons.mp h
    obtain ⟨hu, helement⟩ := hs.step hl
    obtain ⟨hs', hlast, hgreetings⟩ := ih hu h
    refine ⟨hs', ?_, ?_⟩
    · rw [hlast, helement]
      cases ha : l.accepted with
      | none => rw [List.filterMap_cons_none ha, Option.getD_none]
      | some event =>
        rw [List.filterMap_cons_some ha, List.getLast?_cons, Option.getD_some, Option.getD_some]
    · rw [hgreetings, List.filterMap_append, List.append_assoc, hs.greeting_step hl]

/-- The run of the subject that a run of the relay is. -/
theorem exec_toSubject (ls : List (RelayLabel ε O)) : Runs.exec (Runs.logged (step order)) (s, log) ls =
    Runs.exec (Runs.logged (Broadcast.step BehaviorSubject.ops order)) (s, log)
      (ls.map RelayLabel.toSubject) :=
  Runs.exec_relabel (Runs.logged (Broadcast.step BehaviorSubject.ops order)) RelayLabel.toSubject (s, log) ls

/-- **A relay never fails.**  In every run, whatever overlaps, `value` does not trap and is what was accepted
last; each subscriber is told the value of the relay at once, and from then on what is accepted, each once. -/
theorem value_accepted (initial : ε) (order : ValueOrder O) (ls : List (RelayLabel ε O))
    (hroom : ls.countP RelayLabel.subscribes ≤ UInt64.size) (s : Broadcast (BehaviorSubject O ε) ε O)
    (log : List (Notice ε O))
    (h : Runs.exec (Runs.logged (step order)) (launch initial, []) ls = some (s, log)) :
    value s = some (((ls.filterMap RelayLabel.accepted).getLast?).getD initial) ∧
    log.filterMap greeting = greetings initial ls ∧
    Broadcast.ToldOnce (ls.map RelayLabel.toSubject) s log := by
  have h0 : IsOpen (launch initial : Broadcast (BehaviorSubject O ε) ε O) := ⟨rfl, rfl⟩
  obtain ⟨hs, helement, hgreetings⟩ := h0.exec h
  refine ⟨hs.value_eq.trans (congrArg some helement), hgreetings, ?_⟩
  rw [← RelayLabel.countP_toSubject] at hroom
  exact (BehaviorSubject.told_each_once initial order _ hroom s log
    ((exec_toSubject ls).symm.trans h)).1

/-- A loader: it spins and stops while somebody subscribes, and the first subscriber leaves. -/
def loading : List (RelayLabel Bool ℕ) :=
  [.subscribe 0, .accept true, .tell 0, .subscribe 1, .accept false, .tell 1, .tell 1, .dispose ⟨0⟩]

theorem loading_value : ∃ s log,
    Runs.exec (Runs.logged (step (ValueOrder.inserted ℕ))) (launch false, []) loading = some (s, log) ∧
    value s = some false ∧ log.filterMap greeting = [(0, .next false), (1, .next true)] := by
  obtain ⟨⟨s, log⟩, hs, -⟩ : ∃ r,
      Runs.exec (Runs.logged (step (ValueOrder.inserted ℕ))) (launch false, []) loading = some r ∧ True :=
    Runs.exec_of_any (by decide +kernel)
  obtain ⟨hvalue, hgreetings, -⟩ := value_accepted false _ loading (by decide) s log hs
  exact ⟨s, log, hs, hvalue, hgreetings⟩

/-- With one subscriber and no overlaps, a behavior relay tells its first value and then what it accepts. -/
theorem accepted_atOnce (initial : ε) (order : ValueOrder O) (observer : O) (events : List ε) :
    ∃ s log, Runs.exec (Runs.logged (step order)) (launch initial, [])
        (.subscribe observer :: RelayLabel.atOnce 0 events) = some (s, log) ∧
      log.map Notice.event = (initial :: events).map RxEvent.next ∧
      value s = some (events.getLast?.getD initial) := by
  have h0 : BehaviorSubject.Keeps (BehaviorSubject.init initial : BehaviorSubject O ε) Audience.empty :=
    ⟨Bag.refines_init, rfl, rfl⟩
  have hone : Broadcast.Attended BehaviorSubject.Keeps observer
      (⟨(BehaviorSubject.synchronizedSubscribe observer (BehaviorSubject.init initial)).2, Pool.empty⟩ :
        Broadcast (BehaviorSubject O ε) ε O) :=
    ⟨_, BehaviorSubject.keeps_subscribe observer h0 (Nat.succ_pos _), rfl⟩
  obtain ⟨s, log, hs, hlog, -⟩ :=
    hone.exec_atOnce BehaviorSubject.implements order [.greeted observer (.next initial)] events
  have hrun : Runs.exec (Runs.logged (step order)) (launch initial, [])
      (.subscribe observer :: RelayLabel.atOnce 0 events) = some (s, log) := by
    rw [exec_toSubject, List.map_cons]
    exact (Runs.exec_cons_some rfl _).trans hs
  have hopen : IsOpen (launch initial : Broadcast (BehaviorSubject O ε) ε O) := ⟨rfl, rfl⟩
  obtain ⟨hs', helement, -⟩ := hopen.exec hrun
  refine ⟨s, log, hrun, hlog, ?_⟩
  rw [hs'.value_eq, helement, List.filterMap_cons_none rfl, RelayLabel.accepted_atOnce]
  rfl

/-! ### The last thing told -/

/-- Nobody is left to tell. -/
def Quiet (s : Broadcast (BehaviorSubject O ε) ε O) : Prop :=
  ∀ send event rest, s.sends.find? send = some (event, rest) → rest = []

theorem quiet_iff : Quiet s ↔ ∀ x ∈ s.sends.items, x.2.2 = [] := by
  constructor
  · rintro h ⟨send, event, rest⟩ hx
    exact h send event rest (Pool.find?_eq_some.mpr hx)
  · intro h send event rest hfind
    exact h _ (Pool.find?_eq_some.mp hfind)

instance : Decidable (Quiet s) := decidable_of_iff _ quiet_iff.symm

/-- A call of `accept` is made when the earlier ones have told everybody. -/
def Alone (s : Broadcast (BehaviorSubject O ε) ε O × List (Notice ε O)) : RelayLabel ε O → Prop
  | .accept _ => Quiet s.1
  | _ => True

instance (l : RelayLabel ε O) (s : Broadcast (BehaviorSubject O ε) ε O × List (Notice ε O)) :
    Decidable (Alone s l) :=
  match l with
  | .accept _ => inferInstanceAs (Decidable (Quiet s.1))
  | .subscribe _ | .dispose _ | .tell _ => inferInstanceAs (Decidable True)

section Latest

variable [DecidableEq O]

def noticed (observer : O) : Notice ε O → Option (RxEvent ε)
  | .sent _ observer' event | .greeted observer' event => if observer' = observer then some event else none

/-- What an observer was told last. -/
def lastTold (observer : O) (log : List (Notice ε O)) : Option (RxEvent ε) :=
  (log.filterMap (noticed observer)).getLast?

theorem lastTold_concat (observer : O) (log : List (Notice ε O)) (notice : Notice ε O) :
    lastTold observer (log ++ [notice]) = (noticed observer notice).or (lastTold observer log) := by
  rw [lastTold, List.filterMap_append]
  cases hn : noticed observer notice with
  | none => rw [List.filterMap_cons_none hn, List.filterMap_nil, List.append_nil, Option.none_or]; rfl
  | some event =>
    rw [List.filterMap_cons_some hn, List.filterMap_nil, List.getLast?_concat, Option.some_or]

/-- Who is subscribed was told the element last, or is about to be told. -/
structure Informed (s : Broadcast (BehaviorSubject O ε) ε O) (log : List (Notice ε O)) (t : Topic ε O) :
    Prop where
  tells : Broadcast.TellsAll BehaviorSubject.Keeps s log t
  isOpen : IsOpen s
  current : ∀ send event rest, s.sends.find? send = some (event, rest) → rest ≠ [] →
    event = .next s.subject.element
  told : ∀ observer ∈ t.audience.observers, lastTold observer log = some (.next s.subject.element) ∨
    ∃ send event rest, s.sends.find? send = some (event, rest) ∧ observer ∈ rest

variable {t : Topic ε O}

theorem Informed.accept (hs : Informed s log t) (hquiet : Quiet s) (event : ε)
    (htells : Broadcast.TellsAll BehaviorSubject.Keeps ⟨{ s.subject with element := event },
      s.sends.start (.next event, s.subject.observers.dispatch order)⟩ log (t.step (.on (.next event)))) :
    Informed ⟨{ s.subject with element := event },
      s.sends.start (.next event, s.subject.observers.dispatch order)⟩ log (t.step (.on (.next event))) := by
  constructor
  · exact htells
  · exact ⟨hs.isOpen.disposed, hs.isOpen.stoppedEvent⟩
  · intro send event' rest hfind hrest
    rw [Pool.find?_start] at hfind
    split_ifs at hfind with hsend
    · obtain ⟨rfl, -⟩ := Prod.mk.inj (Option.some.inj hfind)
      rfl
    · exact absurd (hquiet send event' rest hfind) hrest
  · intro observer hobserver
    right
    refine ⟨s.sends.next, .next event, s.subject.observers.dispatch order, Pool.find?_start_next _, ?_⟩
    have hno : ¬ (s.subject.stoppedEvent.isSome = true ∨ s.subject.disposed = true) := by
      simp [hs.isOpen.disposed, hs.isOpen.stoppedEvent]
    have hperm := BehaviorSubject.synchronizedOn_observers (.next event) hs.tells.keeps order
    have hon : BehaviorSubject.synchronizedOn (.next event) s.subject =
        (s.subject.observers, { s.subject with element := event }) := if_neg hno
    rw [hon] at hperm
    exact hperm.symm.subset hobserver

theorem Informed.tell (hs : Informed s log t) {send : ℕ} {observer : O} {event : RxEvent ε} {rest : List O}
    (hfind : s.sends.find? send = some (event, observer :: rest)) :
    Informed { s with sends := s.sends.update send fun _ => (event, rest) }
      (log ++ [.sent send observer event]) t := by
  have hevent : event = .next s.subject.element := hs.current send event _ hfind (List.cons_ne_nil _ _)
  constructor
  · exact hs.tells.tell hfind
  · exact ⟨hs.isOpen.disposed, hs.isOpen.stoppedEvent⟩
  · intro send' event' rest' hfind' hrest'
    rw [Pool.find?_update] at hfind'
    split_ifs at hfind' with hsend
    · subst hsend
      rw [hfind] at hfind'
      cases hfind'
      exact hevent
    · exact hs.current send' event' rest' hfind' hrest'
  · intro observer' hobserver'
    rw [lastTold_concat, noticed]
    by_cases hsame : observer = observer'
    · left
      rw [if_pos hsame, hevent, Option.some_or]
    · rw [if_neg hsame, Option.none_or]
      rcases hs.told observer' hobserver' with hlast | ⟨send', event', rest', hfind', hmem⟩
      · exact .inl hlast
      · right
        by_cases hsend : send' = send
        · subst hsend
          obtain ⟨rfl, rfl⟩ := Prod.mk.inj (Option.some.inj (hfind'.symm.trans hfind))
          refine ⟨send', event', rest, ?_, ?_⟩
          · rw [Pool.find?_update, if_pos rfl, hfind, Option.map_some]
          · exact (List.mem_cons.mp hmem).resolve_left fun h => hsame h.symm
        · refine ⟨send', event', rest', ?_, hmem⟩
          rw [Pool.find?_update, if_neg hsend, hfind']

theorem Informed.subscribe (hs : Informed s log t) (observer : O) (hclosed : ¬ t.audience.closed = true)
    (htells : Broadcast.TellsAll BehaviorSubject.Keeps
      { s with subject := { s.subject with observers := (s.subject.observers.insert observer).2 } }
      (log ++ [.greeted observer (.next s.subject.element)]) (t.step (.subscribe observer))) :
    Informed { s with subject := { s.subject with observers := (s.subject.observers.insert observer).2 } }
      (log ++ [.greeted observer (.next s.subject.element)]) (t.step (.subscribe observer)) := by
  constructor
  · exact htells
  · exact ⟨hs.isOpen.disposed, hs.isOpen.stoppedEvent⟩
  · exact hs.current
  · intro observer' hobserver'
    have hobservers : (t.step (.subscribe observer)).audience.observers = t.audience.observers ++ [observer] := by
      show (t.audience.subscribe observer).observers = _
      rw [Audience.subscribe, dif_neg hclosed]
      simp [Audience.observers]
    rw [lastTold_concat, noticed]
    by_cases hsame : observer = observer'
    · left
      rw [if_pos hsame, Option.some_or]
    · rw [if_neg hsame, Option.none_or]
      rw [hobservers, List.mem_append, List.mem_singleton] at hobserver'
      exact hs.told observer' (hobserver'.resolve_right fun h => hsame h.symm)

theorem Informed.step (hs : Informed s log t) {l : RelayLabel ε O} {out : List (Notice ε O)}
    (hclosed : ¬ t.audience.closed = true) (halone : Alone (s, log) l)
    (hroom : l.subscribes = true → t.audience.subscribers.next < UInt64.size)
    (h : BehaviorRelay.step order s l = some (s', out)) : Informed s' (log ++ out) (t.step l.toSubject) := by
  have htells : Broadcast.TellsAll BehaviorSubject.Keeps s' (log ++ out) (t.step l.toSubject) := by
    refine hs.tells.step BehaviorSubject.implements ?_ h
    intro hsub
    cases l with
    | subscribe observer => exact hroom rfl
    | accept | dispose | tell => cases hsub
  cases l with
  | accept event =>
    rw [hs.isOpen.accept event] at h
    cases h
    rw [List.append_nil] at htells ⊢
    exact hs.accept halone event htells
  | subscribe observer =>
    rw [hs.isOpen.subscribe observer] at h
    cases h
    exact hs.subscribe observer hclosed htells
  | dispose key =>
    obtain ⟨hopen, helement⟩ := hs.isOpen.step h
    obtain ⟨subject, -, hsame⟩ := Option.map_eq_some_iff.mp h
    cases hsame
    rw [List.append_nil] at htells ⊢
    have helement' : subject.element = s.subject.element := helement
    constructor
    · exact htells
    · exact hopen
    · rw [helement']
      exact hs.current
    · rw [helement']
      intro observer hobserver
      refine hs.told observer ?_
      obtain ⟨x, hx, rfl⟩ := List.mem_map.mp hobserver
      exact List.mem_map_of_mem (List.mem_filter.mp hx).1
  | tell send =>
    simp only [BehaviorRelay.step, RelayLabel.toSubject, Broadcast.step] at h
    split at h
    · rename_i event observer rest hfind
      cases h
      exact hs.tell hfind
    · cases h

theorem Informed.exec (hs : Informed s log t) {ls : List (RelayLabel ε O)} (hclosed : ¬ t.audience.closed = true)
    (hroom : t.audience.subscribers.next + ls.countP RelayLabel.subscribes ≤ UInt64.size)
    (halone : Runs.EachStep (Runs.logged (BehaviorRelay.step order)) (fun s l _ => Alone s l) (s, log) ls)
    (h : Runs.exec (Runs.logged (BehaviorRelay.step order)) (s, log) ls = some (s', log')) :
    Informed s' log' ((ls.map RelayLabel.toSubject).foldl Topic.step t) := by
  induction ls generalizing s log t with
  | nil =>
    cases h
    exact hs
  | cons l ls ih =>
    rw [List.countP_cons] at hroom
    obtain ⟨⟨u, log₁⟩, hl, hrest⟩ := Option.bind_eq_some_iff.mp h
    obtain ⟨out, hstep, rfl⟩ := Runs.logged_eq_some.mp hl
    obtain ⟨hfirst, halone'⟩ := Runs.eachStep_cons.mp halone _ hl
    have hone : l.subscribes = true → t.audience.subscribers.next < UInt64.size := by
      intro hsub
      rw [if_pos hsub] at hroom
      omega
    have hclosed' : ¬ (t.step l.toSubject).audience.closed = true := by
      have hkept : (t.step l.toSubject).audience.closed = t.audience.closed := RelayLabel.closed_foldl t [l]
      rwa [hkept]
    have hle := Broadcast.next_step_le t l.toSubject
    have hsame : Broadcast.isSubscribe l.toSubject = l.subscribes := by cases l <;> rfl
    rw [hsame] at hle
    exact ih (hs.step hclosed hfirst hone hstep) hclosed' (by omega) halone' hrest

/-- **The last word.**  Where every call of `accept` is made after the earlier ones have told everybody, whoever
is subscribed when everybody has been told was told the value of the relay last. -/
theorem latest_told (initial : ε) (order : ValueOrder O) (ls : List (RelayLabel ε O))
    (hroom : ls.countP RelayLabel.subscribes ≤ UInt64.size)
    (halone : Runs.EachStep (Runs.logged (step order)) (fun s l _ => Alone s l) (launch initial, []) ls)
    (s : Broadcast (BehaviorSubject O ε) ε O) (log : List (Notice ε O))
    (h : Runs.exec (Runs.logged (step order)) (launch initial, []) ls = some (s, log)) (hquiet : Quiet s) :
    ∀ observer ∈ (RelayLabel.topic ls).audience.observers,
      lastTold observer log = (value s).map RxEvent.next := by
  have h0 : Informed (launch initial : Broadcast (BehaviorSubject O ε) ε O) [] Topic.launch := by
    constructor
    · exact ⟨⟨Bag.refines_init, rfl, rfl⟩, rfl, fun send event observers h => (by cases h), fun send _ => rfl⟩
    · exact ⟨rfl, rfl⟩
    · exact fun send event rest h => (by cases h)
    · exact fun observer h => (by cases h)
  have hzero : (Topic.launch : Topic ε O).audience.subscribers.next = 0 := rfl
  have hs := h0.exec (by simp [Topic.launch, Audience.empty]) (by rwa [hzero, Nat.zero_add]) halone h
  intro observer hobserver
  rw [hs.isOpen.value_eq, Option.map_some]
  rcases hs.told observer hobserver with hlast | ⟨send, event, rest, hfind, hmem⟩
  · exact hlast
  · rw [hquiet send event rest hfind] at hmem
    cases hmem

theorem loading_latest : ∃ s log,
    Runs.exec (Runs.logged (step (ValueOrder.inserted ℕ))) (launch false, []) loading = some (s, log) ∧
    lastTold 1 log = (value s).map RxEvent.next := by
  obtain ⟨⟨s, log⟩, hs, hquiet⟩ : ∃ r,
      Runs.exec (Runs.logged (step (ValueOrder.inserted ℕ))) (launch false, []) loading = some r ∧
      Quiet r.1 := Runs.exec_of_any (by decide +kernel)
  have halone : Runs.EachStep (Runs.logged (step (ValueOrder.inserted ℕ))) (fun s l _ => Alone s l)
      (launch false, []) loading :=
    Runs.eachStep_of_check (q := fun s l => decide (Alone s l)) (fun s l t h => of_decide_eq_true h)
      (by decide +kernel)
  have hone : 1 ∈ (RelayLabel.topic loading).audience.observers := by decide +kernel
  exact ⟨s, log, hs, latest_told false _ loading (by decide) halone s log hs hquiet 1 hone⟩

/-- Two threads, and the later call of `accept` gets to the subscriber first. -/
example : (Runs.exec (Runs.logged (step (ValueOrder.inserted ℕ))) (launch false, [])
    [.subscribe 0, .accept true, .accept false, .tell 1, .tell 0]).any
      (fun r => value r.1 = some false ∧ lastTold 0 r.2 = some (.next true)) = true := by
  decide +kernel

end Latest

end BehaviorRelay

end Spotify

import Spotify.Rx.Bag

/-!
# Spotify.Rx.Subjects — `PublishSubject` and `BehaviorSubject`, from any number of threads

A subject takes a copy of its observers under its lock and calls them after it has let the lock go, so calls of
`on` overlap, and what happens between two observers may change the subject.  `Broadcast` is a subject with the
calls of `on` under way; one step calls one observer.  What the subject is for is in `Topic`: an event goes to
those who are subscribed when it is sent.  Both subjects do that (`PublishSubject.told_once`,
`BehaviorSubject.told_each_once`): however the calls overlap, nobody is left out and nobody is told twice.
-/

namespace Spotify

inductive RxError where
  | disposed
  | other (localizedDescription : String)
  deriving DecidableEq

/-- `Event` -/
inductive RxEvent (ε : Type) where
  | next (element : ε)
  | error (error : RxError)
  | completed
  deriving DecidableEq

def RxEvent.isStopEvent {ε : Type} : RxEvent ε → Bool
  | .next _ => false
  | .error _ | .completed => true

/-- What a subject does under its lock: `on` gives the observers to call, `subscribe` what the observer is told
at once, `unsubscribe` is `none` where it traps. -/
structure SubjectType (S ε O : Type) where
  on : RxEvent ε → S → Bag O × S
  subscribe : O → S → List (RxEvent ε) × S
  unsubscribe : BagKey → S → Option S
  dispose : S → S

/-- A subject, and the calls of `on` with the observers that each has yet to call. -/
structure Broadcast (S ε O : Type) where
  subject : S
  sends : Pool (RxEvent ε × List O)
  deriving DecidableEq

inductive SubjectLabel (ε O : Type) where
  | on (event : RxEvent ε)
  | subscribe (observer : O)
  | unsubscribe (key : BagKey)
  | dispose
  /-- a call of `on` gets to its next observer -/
  | tell (send : ℕ)
  deriving DecidableEq

/-- An observer is told something, by a call of `on` or while it subscribes. -/
inductive Notice (ε O : Type) where
  | sent (send : ℕ) (observer : O) (event : RxEvent ε)
  | greeted (observer : O) (event : RxEvent ε)
  deriving DecidableEq

def Notice.event {ε O : Type} : Notice ε O → RxEvent ε
  | .sent _ _ event | .greeted _ event => event

namespace Broadcast

variable {S ε O : Type}

def launch (subject : S) : Broadcast S ε O := ⟨subject, Pool.empty⟩

def step (ops : SubjectType S ε O) (order : ValueOrder O) (s : Broadcast S ε O) :
    SubjectLabel ε O → Option (Broadcast S ε O × List (Notice ε O))
  | .on event =>
    let r := ops.on event s.subject
    some (⟨r.2, s.sends.start (event, r.1.dispatch order)⟩, [])
  | .subscribe observer =>
    let r := ops.subscribe observer s.subject
    some ({ s with subject := r.2 }, r.1.map (.greeted observer))
  | .unsubscribe key => (ops.unsubscribe key s.subject).map fun subject => ({ s with subject := subject }, [])
  | .dispose => some ({ s with subject := ops.dispose s.subject }, [])
  | .tell send =>
    match s.sends.find? send with
    | some (event, observer :: rest) =>
      some ({ s with sends := s.sends.update send fun _ => (event, rest) }, [.sent send observer event])
    | _ => none

end Broadcast

/-! ### The two subjects -/

structure PublishSubject (O ε : Type) where
  disposed : Bool
  observers : Bag O
  stopped : Bool
  stoppedEvent : Option (RxEvent ε)
  deriving DecidableEq

namespace PublishSubject

variable {O ε : Type}

def init : PublishSubject O ε := ⟨false, Bag.init, false, none⟩

def synchronizedOn (event : RxEvent ε) (s : PublishSubject O ε) : Bag O × PublishSubject O ε :=
  if event.isStopEvent then
    match s.stoppedEvent with
    | none => (s.observers,
        { s with stoppedEvent := some event, stopped := true, observers := s.observers.removeAll })
    | some _ => (Bag.init, s)
  else if s.disposed ∨ s.stopped then (Bag.init, s)
  else (s.observers, s)

def synchronizedSubscribe (observer : O) (s : PublishSubject O ε) : List (RxEvent ε) × PublishSubject O ε :=
  match s.stoppedEvent with
  | some stoppedEvent => ([stoppedEvent], s)
  | none =>
    if s.disposed then ([.error .disposed], s)
    else ([], { s with observers := (s.observers.insert observer).2 })

def synchronizedUnsubscribe (key : BagKey) (s : PublishSubject O ε) : Option (PublishSubject O ε) :=
  (s.observers.removeKey key).map fun r => { s with observers := r.2 }

def synchronizedDispose (s : PublishSubject O ε) : PublishSubject O ε :=
  { s with disposed := true, observers := s.observers.removeAll, stoppedEvent := none }

def ops : SubjectType (PublishSubject O ε) ε O :=
  ⟨synchronizedOn, synchronizedSubscribe, synchronizedUnsubscribe, synchronizedDispose⟩

end PublishSubject

structure BehaviorSubject (O ε : Type) where
  disposed : Bool
  element : ε
  observers : Bag O
  stoppedEvent : Option (RxEvent ε)
  deriving DecidableEq

namespace BehaviorSubject

variable {O ε : Type}

def init (value : ε) : BehaviorSubject O ε := ⟨false, value, Bag.init, none⟩

/-- `value()` -/
def value (s : BehaviorSubject O ε) : Except RxError ε :=
  if s.disposed then .error .disposed
  else
    match s.stoppedEvent with
    | some (.error error) => .error error
    | _ => .ok s.element

def synchronizedOn (event : RxEvent ε) (s : BehaviorSubject O ε) : Bag O × BehaviorSubject O ε :=
  if s.stoppedEvent.isSome ∨ s.disposed then (Bag.init, s)
  else
    match event with
    | .next element => (s.observers, { s with element := element })
    | .error _ | .completed => (s.observers, { s with stoppedEvent := some event })

def synchronizedSubscribe (observer : O) (s : BehaviorSubject O ε) : List (RxEvent ε) × BehaviorSubject O ε :=
  if s.disposed then ([.error .disposed], s)
  else
    match s.stoppedEvent with
    | some stoppedEvent => ([stoppedEvent], s)
    | none => ([.next s.element], { s with observers := (s.observers.insert observer).2 })

def synchronizedUnsubscribe (key : BagKey) (s : BehaviorSubject O ε) : Option (BehaviorSubject O ε) :=
  if s.disposed then some s
  else (s.observers.removeKey key).map fun r => { s with observers := r.2 }

/-- `dispose()` -/
def dispose (s : BehaviorSubject O ε) : BehaviorSubject O ε :=
  { s with disposed := true, observers := s.observers.removeAll, stoppedEvent := none }

def ops : SubjectType (BehaviorSubject O ε) ε O :=
  ⟨synchronizedOn, synchronizedSubscribe, synchronizedUnsubscribe, dispose⟩

end BehaviorSubject

/-! ### What a subject is for -/

/-- Who is subscribed; after a stop event or `dispose` nobody, for good. -/
structure Audience (O : Type) where
  subscribers : Pool O
  closed : Bool
  nobody : closed = true → subscribers.items = []

namespace Audience

variable {O ε : Type}

def empty : Audience O := ⟨Pool.empty, false, fun _ => rfl⟩

def observers (a : Audience O) : List O := a.subscribers.items.map Prod.snd

def close (a : Audience O) : Audience O := ⟨a.subscribers.clear, true, fun _ => rfl⟩

def on (event : RxEvent ε) (a : Audience O) : Audience O := if event.isStopEvent then a.close else a

def subscribe (observer : O) (a : Audience O) : Audience O :=
  if h : a.closed = true then a else ⟨a.subscribers.start observer, a.closed, fun h' => absurd h' h⟩

def unsubscribe (key : BagKey) (a : Audience O) : Audience O where
  subscribers := a.subscribers.finish key.rawValue.toNat
  closed := a.closed
  nobody h := by simp [Pool.finish, a.nobody h]

theorem observers_of_closed {a : Audience O} (h : a.closed = true) : a.observers = [] := by
  rw [observers, a.nobody h, List.map_nil]

theorem next_subscribe_le (observer : O) (a : Audience O) :
    (a.subscribe observer).subscribers.next ≤ a.subscribers.next + 1 := by
  unfold subscribe
  split
  · exact Nat.le_succ _
  · exact Nat.le_refl _

end Audience

/-- The audience, and each call of `on` so far with those who were subscribed then. -/
structure Topic (ε O : Type) where
  audience : Audience O
  calls : List (RxEvent ε × List O)

namespace Topic

variable {ε O : Type}

def launch : Topic ε O := ⟨Audience.empty, []⟩

def step (t : Topic ε O) : SubjectLabel ε O → Topic ε O
  | .on event => ⟨t.audience.on event, t.calls ++ [(event, t.audience.observers)]⟩
  | .subscribe observer => { t with audience := t.audience.subscribe observer }
  | .unsubscribe key => { t with audience := t.audience.unsubscribe key }
  | .dispose => { t with audience := t.audience.close }
  | .tell _ => t

end Topic

/-- A subject keeps the audience `R`-related to its state. -/
structure Implements {S ε O : Type} (ops : SubjectType S ε O) (R : S → Audience O → Prop) : Prop where
  on : ∀ {s a} event, R s a → (∀ order, ((ops.on event s).1.dispatch order).Perm a.observers) ∧
    R (ops.on event s).2 (a.on event)
  subscribe : ∀ {s a} observer, R s a → a.subscribers.next < UInt64.size →
    R (ops.subscribe observer s).2 (a.subscribe observer)
  unsubscribe : ∀ {s a} key, R s a → ∃ s', ops.unsubscribe key s = some s' ∧ R s' (a.unsubscribe key)
  dispose : ∀ {s a}, R s a → R (ops.dispose s) a.close

/-! ### `PublishSubject` -/

namespace PublishSubject

variable {O ε : Type} {s : PublishSubject O ε} {a : Audience O}

/-- Open, the subject holds the subscribers; closed, it holds nobody and refuses to take anybody on. -/
def Keeps (s : PublishSubject O ε) (a : Audience O) : Prop :=
  if a.closed = true then
    Bag.Valid s.observers ∧ s.observers.entries = [] ∧ (s.disposed = true ∨ s.stopped = true) ∧
      (s.disposed = true ∨ s.stoppedEvent.isSome = true)
  else
    Bag.Refines s.observers a.subscribers ∧ s.disposed = false ∧ s.stopped = false ∧ s.stoppedEvent = none

theorem keeps_open (ha : ¬ a.closed = true) : Keeps s a ↔ Bag.Refines s.observers a.subscribers ∧
    s.disposed = false ∧ s.stopped = false ∧ s.stoppedEvent = none := by
  rw [Keeps, if_neg ha]

theorem keeps_closed (ha : a.closed = true) : Keeps s a ↔ Bag.Valid s.observers ∧ s.observers.entries = [] ∧
    (s.disposed = true ∨ s.stopped = true) ∧ (s.disposed = true ∨ s.stoppedEvent.isSome = true) := by
  rw [Keeps, if_pos ha]

theorem keeps_valid (h : Keeps s a) : Bag.Valid s.observers := by
  by_cases ha : a.closed = true
  · exact ((keeps_closed ha).mp h).1
  · exact ((keeps_open ha).mp h).1.valid

/-- The observers that a call of `on` takes with it. -/
theorem synchronizedOn_observers (event : RxEvent ε) (h : Keeps s a) (order : ValueOrder O) :
    ((synchronizedOn event s).1.dispatch order).Perm a.observers := by
  by_cases ha : a.closed = true
  · obtain ⟨hvalid, hentries, hstop, -⟩ := (keeps_closed ha).mp h
    rw [Audience.observers_of_closed ha]
    have hempty := hvalid.dispatch order
    rw [hentries] at hempty
    unfold synchronizedOn
    by_cases hevent : event.isStopEvent = true
    · rw [if_pos hevent]
      cases s.stoppedEvent with
      | none => exact hempty
      | some stoppedEvent => exact List.Perm.refl _
    · rw [if_neg hevent, if_pos hstop]
      exact List.Perm.refl _
  · obtain ⟨hrefines, hdisposed, hstopped, hevent⟩ := (keeps_open ha).mp h
    unfold synchronizedOn
    rw [hevent, hdisposed, hstopped]
    split
    · exact hrefines.dispatch order
    · exact hrefines.dispatch order

theorem keeps_on (event : RxEvent ε) (h : Keeps s a) : Keeps (synchronizedOn event s).2 (a.on event) := by
  by_cases hstop : event.isStopEvent = true
  · rw [Audience.on, if_pos hstop, keeps_closed rfl, synchronizedOn, if_pos hstop]
    cases hevent : s.stoppedEvent with
    | none =>
      obtain ⟨hvalid, -, hentries⟩ := (keeps_valid h).removeAll
      exact ⟨hvalid, hentries, .inr rfl, .inr rfl⟩
    | some stoppedEvent =>
      by_cases ha : a.closed = true
      · exact (keeps_closed ha).mp h
      · have hnone := ((keeps_open ha).mp h).2.2.2
        rw [hevent] at hnone
        cases hnone
  · rw [Audience.on, if_neg hstop, synchronizedOn, if_neg hstop]
    split
    · exact h
    · exact h

theorem keeps_subscribe (observer : O) (h : Keeps s a) (hroom : a.subscribers.next < UInt64.size) :
    Keeps (synchronizedSubscribe observer s).2 (a.subscribe observer) := by
  by_cases ha : a.closed = true
  · have hsame : a.subscribe observer = a := dif_pos ha
    obtain ⟨-, -, -, hrefuse⟩ := (keeps_closed ha).mp h
    rw [hsame, synchronizedSubscribe]
    cases hevent : s.stoppedEvent with
    | some stoppedEvent => exact h
    | none =>
      have hdisposed : s.disposed = true := by
        rw [hevent] at hrefuse
        exact hrefuse.resolve_right (by simp)
      simp only [hdisposed]
      exact h
  · obtain ⟨hrefines, hdisposed, hstopped, hevent⟩ := (keeps_open ha).mp h
    have hnew : a.subscribe observer =
        ⟨a.subscribers.start observer, a.closed, fun h' => absurd h' ha⟩ := dif_neg ha
    rw [hnew, synchronizedSubscribe, hevent, hdisposed]
    refine (keeps_open ?_).mpr ?_
    · exact ha
    · exact ⟨(hrefines.insert hroom observer).2, rfl, hstopped, rfl⟩

theorem keeps_unsubscribe (key : BagKey) (h : Keeps s a) :
    ∃ s', synchronizedUnsubscribe key s = some s' ∧ Keeps s' (a.unsubscribe key) := by
  by_cases ha : a.closed = true
  · obtain ⟨hvalid, hentries, hstop, hrefuse⟩ := (keeps_closed ha).mp h
    obtain ⟨r, b, hremove, hvalid', -, ⟨element, -, hperm⟩ | ⟨-, rfl, -⟩⟩ := hvalid.removeKey key
    · rw [hentries] at hperm
      cases hperm.nil_eq
    · refine ⟨s, ?_, (keeps_closed (a := a.unsubscribe key) ha).mpr ⟨hvalid, hentries, hstop, hrefuse⟩⟩
      rw [synchronizedUnsubscribe, hremove, Option.map_some]
  · obtain ⟨hrefines, hflags⟩ := (keeps_open ha).mp h
    obtain ⟨b, hremove, hrefines'⟩ := hrefines.removeKey key
    refine ⟨{ s with observers := b }, ?_, (keeps_open (a := a.unsubscribe key) ha).mpr ⟨hrefines', hflags⟩⟩
    rw [synchronizedUnsubscribe, hremove, Option.map_some]

theorem implements : Implements (ops : SubjectType (PublishSubject O ε) ε O) Keeps where
  on event h := ⟨synchronizedOn_observers event h, keeps_on event h⟩
  subscribe := keeps_subscribe
  unsubscribe := keeps_unsubscribe
  dispose h := by
    obtain ⟨hvalid, -, hentries⟩ := (keeps_valid h).removeAll
    exact (keeps_closed rfl).mpr ⟨hvalid, hentries, .inl rfl, .inl rfl⟩

end PublishSubject

/-! ### `BehaviorSubject` -/

namespace BehaviorSubject

variable {O ε : Type} {s : BehaviorSubject O ε} {a : Audience O}

/-- Open, the subject holds the subscribers; closed, it calls nobody, though it still holds those who were
subscribed when a stop event came. -/
def Keeps (s : BehaviorSubject O ε) (a : Audience O) : Prop :=
  if a.closed = true then Bag.Valid s.observers ∧ (s.stoppedEvent.isSome = true ∨ s.disposed = true)
  else Bag.Refines s.observers a.subscribers ∧ s.disposed = false ∧ s.stoppedEvent = none

theorem keeps_open (ha : ¬ a.closed = true) : Keeps s a ↔
    Bag.Refines s.observers a.subscribers ∧ s.disposed = false ∧ s.stoppedEvent = none := by
  rw [Keeps, if_neg ha]

theorem keeps_closed (ha : a.closed = true) :
    Keeps s a ↔ Bag.Valid s.observers ∧ (s.stoppedEvent.isSome = true ∨ s.disposed = true) := by
  rw [Keeps, if_pos ha]

theorem keeps_valid (h : Keeps s a) : Bag.Valid s.observers := by
  by_cases ha : a.closed = true
  · exact ((keeps_closed ha).mp h).1
  · exact ((keeps_open ha).mp h).1.valid

theorem not_stopped (ha : ¬ a.closed = true) (h : Keeps s a) :
    ¬ (s.stoppedEvent.isSome = true ∨ s.disposed = true) := by
  obtain ⟨-, hdisposed, hevent⟩ := (keeps_open ha).mp h
  simp [hdisposed, hevent]

theorem synchronizedOn_stopped (event : RxEvent ε) (h : s.stoppedEvent.isSome = true ∨ s.disposed = true) :
    synchronizedOn event s = (Bag.init, s) := by
  unfold synchronizedOn
  exact if_pos h

theorem synchronizedOn_observers (event : RxEvent ε) (h : Keeps s a) (order : ValueOrder O) :
    ((synchronizedOn event s).1.dispatch order).Perm a.observers := by
  by_cases ha : a.closed = true
  · rw [Audience.observers_of_closed ha, synchronizedOn_stopped event ((keeps_closed ha).mp h).2]
    exact List.Perm.refl _
  · unfold synchronizedOn
    rw [if_neg (not_stopped ha h)]
    cases event with
    | next | error | completed => exact ((keeps_open ha).mp h).1.dispatch order

theorem keeps_on (event : RxEvent ε) (h : Keeps s a) : Keeps (synchronizedOn event s).2 (a.on event) := by
  by_cases ha : a.closed = true
  · rw [synchronizedOn_stopped event ((keeps_closed ha).mp h).2, Audience.on]
    split
    · exact (keeps_closed rfl).mpr ((keeps_closed ha).mp h)
    · exact h
  · obtain ⟨hrefines, hflags⟩ := (keeps_open ha).mp h
    unfold synchronizedOn
    rw [if_neg (not_stopped ha h)]
    cases event with
    | next element => exact (keeps_open ha).mpr ⟨hrefines, hflags⟩
    | error | completed => exact (keeps_closed rfl).mpr ⟨hrefines.valid, .inl rfl⟩

theorem keeps_subscribe (observer : O) (h : Keeps s a) (hroom : a.subscribers.next < UInt64.size) :
    Keeps (synchronizedSubscribe observer s).2 (a.subscribe observer) := by
  by_cases ha : a.closed = true
  · have hsame : a.subscribe observer = a := dif_pos ha
    obtain ⟨-, hstop⟩ := (keeps_closed ha).mp h
    rw [hsame, synchronizedSubscribe]
    split
    · exact h
    · rename_i hdisposed
      obtain ⟨stoppedEvent, hevent⟩ := Option.isSome_iff_exists.mp (hstop.resolve_right hdisposed)
      rw [hevent]
      exact h
  · obtain ⟨hrefines, hdisposed, hevent⟩ := (keeps_open ha).mp h
    have hnew : a.subscribe observer =
        ⟨a.subscribers.start observer, a.closed, fun h' => absurd h' ha⟩ := dif_neg ha
    rw [hnew, synchronizedSubscribe, hevent, hdisposed]
    refine (keeps_open ?_).mpr ?_
    · exact ha
    · exact ⟨(hrefines.insert hroom observer).2, rfl, rfl⟩

theorem keeps_unsubscribe (key : BagKey) (h : Keeps s a) :
    ∃ s', synchronizedUnsubscribe key s = some s' ∧ Keeps s' (a.unsubscribe key) := by
  by_cases ha : a.closed = true
  · obtain ⟨hvalid, hstop⟩ := (keeps_closed ha).mp h
    unfold synchronizedUnsubscribe
    split
    · exact ⟨s, rfl, (keeps_closed (a := a.unsubscribe key) ha).mpr ⟨hvalid, hstop⟩⟩
    · obtain ⟨r, b, hremove, hvalid', -⟩ := hvalid.removeKey key
      refine ⟨{ s with observers := b }, ?_, (keeps_closed (a := a.unsubscribe key) ha).mpr ⟨hvalid', hstop⟩⟩
      rw [hremove, Option.map_some]
  · obtain ⟨hrefines, hdisposed, hevent⟩ := (keeps_open ha).mp h
    obtain ⟨b, hremove, hrefines'⟩ := hrefines.removeKey key
    refine ⟨{ s with observers := b }, ?_,
      (keeps_open (a := a.unsubscribe key) ha).mpr ⟨hrefines', hdisposed, hevent⟩⟩
    unfold synchronizedUnsubscribe
    rw [hdisposed, hremove]
    rfl

theorem implements : Implements (ops : SubjectType (BehaviorSubject O ε) ε O) Keeps where
  on event h := ⟨synchronizedOn_observers event h, keeps_on event h⟩
  subscribe := keeps_subscribe
  unsubscribe := keeps_unsubscribe
  dispose h := (keeps_closed rfl).mpr ⟨((keeps_valid h).removeAll).1, .inr rfl⟩

end BehaviorSubject

/-! ### Told exactly once -/

namespace Broadcast

variable {S ε O : Type} {ops : SubjectType S ε O} {R : S → Audience O → Prop} {order : ValueOrder O}
  {s s' : Broadcast S ε O} {t : Topic ε O} {log log' out : List (Notice ε O)}

/-- Whom a call of `on` has told what. -/
def told (send : ℕ) (log : List (Notice ε O)) : List (O × RxEvent ε) :=
  log.filterMap fun
    | .sent send' observer event => if send' = send then some (observer, event) else none
    | .greeted _ _ => none

def isSubscribe : SubjectLabel ε O → Bool
  | .subscribe _ => true
  | _ => false

theorem told_append (send : ℕ) (log log' : List (Notice ε O)) :
    told send (log ++ log') = told send log ++ told send log' := List.filterMap_append

theorem told_greeted (send : ℕ) (observer : O) (events : List (RxEvent ε)) :
    told send (events.map (Notice.greeted observer)) = [] := by
  induction events with
  | nil => rfl
  | cons event events ih => exact ih

theorem told_sent (send send' : ℕ) (observer : O) (event : RxEvent ε) :
    told send [.sent send' observer event] = if send' = send then [(observer, event)] else [] := by
  rw [told]
  split <;> simp_all

/-- Each call of `on` has told, or has yet to tell, exactly those who were subscribed when it was made. -/
structure TellsAll (R : S → Audience O → Prop) (s : Broadcast S ε O) (log : List (Notice ε O))
    (t : Topic ε O) : Prop where
  keeps : R s.subject t.audience
  next : s.sends.next = t.calls.length
  calls : ∀ send event observers, t.calls[send]? = some (event, observers) → ∃ rest,
    s.sends.find? send = some (event, rest) ∧
      (told send log ++ rest.map fun o => (o, event)).Perm (observers.map fun o => (o, event))
  fresh : ∀ send, s.sends.next ≤ send → told send log = []

theorem TellsAll.on (h : TellsAll R s log t) (hops : Implements ops R) (order : ValueOrder O) (event : RxEvent ε) :
    TellsAll R ⟨(ops.on event s.subject).2,
      s.sends.start (event, (ops.on event s.subject).1.dispatch order)⟩ log (t.step (.on event)) := by
  obtain ⟨hobservers, hkeeps⟩ := hops.on event h.keeps
  constructor
  · exact hkeeps
  · show s.sends.next + 1 = (t.calls ++ [(event, t.audience.observers)]).length
    rw [List.length_append, List.length_singleton, h.next]
  · intro send event' observers hcall
    rw [Pool.find?_start]
    by_cases hsend : send = s.sends.next
    · have hnew : (t.calls ++ [(event, t.audience.observers)])[send]? = some (event, t.audience.observers) := by
        rw [hsend, h.next, List.getElem?_concat_length]
      obtain ⟨rfl, rfl⟩ := Prod.mk.inj (Option.some.inj (hcall.symm.trans hnew))
      refine ⟨_, if_pos hsend, ?_⟩
      rw [h.fresh send (by omega), List.nil_append]
      exact (hobservers order).map _
    · have hlt : send < t.calls.length := by
        have hle := (List.getElem?_eq_some_iff.mp hcall).1
        have hlength : (t.step (.on event)).calls.length = t.calls.length + 1 := List.length_append
        rw [h.next] at hsend
        omega
      have hold : t.calls[send]? = some (event', observers) := by
        rw [← hcall]
        exact (List.getElem?_append_left hlt).symm
      rw [if_neg hsend]
      exact h.calls send event' observers hold
  · intro send hle
    exact h.fresh send (Nat.le_of_succ_le hle)

theorem TellsAll.tell (h : TellsAll R s log t) {send : ℕ} {observer : O} {event : RxEvent ε} {rest : List O}
    (hfind : s.sends.find? send = some (event, observer :: rest)) :
    TellsAll R { s with sends := s.sends.update send fun _ => (event, rest) }
      (log ++ [.sent send observer event]) t := by
  constructor
  · exact h.keeps
  · exact h.next
  · intro send' event' observers hcall
    obtain ⟨rest', hfind', hperm⟩ := h.calls send' event' observers hcall
    rw [Pool.find?_update, told_append, told_sent]
    by_cases hsend : send' = send
    · subst hsend
      obtain ⟨rfl, rfl⟩ := Prod.mk.inj (Option.some.inj (hfind'.symm.trans hfind))
      refine ⟨rest, ?_, ?_⟩
      · rw [if_pos rfl, hfind, Option.map_some]
      · rw [if_pos rfl, List.append_assoc]
        exact hperm
    · refine ⟨rest', by rw [if_neg hsend, hfind'], ?_⟩
      rw [if_neg fun h => hsend h.symm, List.append_nil]
      exact hperm
  · intro send' hle
    have hlt : send < s.sends.next := Pool.find?_lt hfind
    have hne : send ≠ send' := by
      have hle' : s.sends.next ≤ send' := hle
      omega
    rw [told_append, told_sent, if_neg hne, List.append_nil]
    exact h.fresh send' hle

/-- A step that leaves the calls of `on` alone. -/
theorem TellsAll.frame (h : TellsAll R s log t) {subject : S} {audience : Audience O} (hkeeps : R subject audience)
    (hout : ∀ send, told send out = []) :
    TellsAll R { s with subject := subject } (log ++ out) { t with audience := audience } := by
  have hsame : ∀ send, told send (log ++ out) = told send log := by
    intro send
    rw [told_append, hout, List.append_nil]
  constructor
  · exact hkeeps
  · exact h.next
  · intro send event observers hcall
    rw [hsame]
    exact h.calls send event observers hcall
  · intro send hle
    rw [hsame]
    exact h.fresh send hle

theorem TellsAll.step (h : TellsAll R s log t) (hops : Implements ops R) {l : SubjectLabel ε O}
    (hroom : isSubscribe l = true → t.audience.subscribers.next < UInt64.size)
    (hl : s.step ops order l = some (s', out)) : TellsAll R s' (log ++ out) (t.step l) := by
  cases l with
  | on event =>
    cases hl
    rw [List.append_nil]
    exact h.on hops order event
  | subscribe observer =>
    cases hl
    exact h.frame (hops.subscribe observer h.keeps (hroom rfl)) fun send => told_greeted send observer _
  | unsubscribe key =>
    obtain ⟨subject, hsubject, hkeeps⟩ := hops.unsubscribe key h.keeps
    simp only [Broadcast.step, hsubject, Option.map_some] at hl
    cases hl
    exact h.frame hkeeps fun send => rfl
  | dispose =>
    cases hl
    exact h.frame (hops.dispose h.keeps) fun send => rfl
  | tell send =>
    simp only [Broadcast.step] at hl
    split at hl
    · rename_i event observer rest hfind
      cases hl
      exact h.tell hfind
    · cases hl

theorem next_step_le (t : Topic ε O) (l : SubjectLabel ε O) :
    (t.step l).audience.subscribers.next ≤
      t.audience.subscribers.next + if isSubscribe l then 1 else 0 := by
  cases l with
  | on event =>
    show (t.audience.on event).subscribers.next ≤ t.audience.subscribers.next + 0
    unfold Audience.on
    split <;> exact Nat.le_refl _
  | subscribe observer => exact Audience.next_subscribe_le observer t.audience
  | unsubscribe | dispose | tell => exact Nat.le_refl _

theorem TellsAll.exec (hops : Implements ops R) {ls : List (SubjectLabel ε O)} (h : TellsAll R s log t)
    (hroom : t.audience.subscribers.next + ls.countP isSubscribe ≤ UInt64.size)
    (hls : Runs.exec (Runs.logged (Broadcast.step ops order)) (s, log) ls = some (s', log')) :
    TellsAll R s' log' (ls.foldl Topic.step t) := by
  induction ls generalizing s log t with
  | nil =>
    cases hls
    exact h
  | cons l ls ih =>
    rw [List.countP_cons] at hroom
    obtain ⟨u, out, hl, hls⟩ := Runs.exec_logged_cons.mp hls
    have hone : isSubscribe l = true → t.audience.subscribers.next < UInt64.size := by
      intro hsub
      rw [if_pos hsub] at hroom
      omega
    have hle := next_step_le t l
    exact ih (h.step hops hone hl) (by omega) hls

/-- Every call of `on` in the run tells those who were subscribed when it was made, each once. -/
def ToldOnce (ls : List (SubjectLabel ε O)) (s : Broadcast S ε O) (log : List (Notice ε O)) : Prop :=
  s.sends.next = (ls.foldl Topic.step Topic.launch).calls.length ∧
  ∀ send event observers, (ls.foldl Topic.step Topic.launch).calls[send]? = some (event, observers) →
    ∃ rest, s.sends.find? send = some (event, rest) ∧
      (told send log ++ rest.map fun o => (o, event)).Perm (observers.map fun o => (o, event))

theorem tellsAll_of_exec (hops : Implements ops R) {subject : S} (h0 : R subject Audience.empty)
    {ls : List (SubjectLabel ε O)} (hroom : ls.countP isSubscribe ≤ UInt64.size)
    (h : Runs.exec (Runs.logged (step ops order)) (launch subject, []) ls = some (s, log)) :
    ToldOnce ls s log ∧ ∀ key, (s.step ops order (.unsubscribe key)).isSome = true := by
  have hlaunch : TellsAll R (launch subject) [] (Topic.launch : Topic ε O) :=
    ⟨h0, rfl, fun send event observers h => (by cases h), fun send _ => rfl⟩
  have hzero : (Topic.launch : Topic ε O).audience.subscribers.next = 0 := rfl
  have hs := hlaunch.exec hops (by rwa [hzero, Nat.zero_add]) h
  refine ⟨⟨hs.next, hs.calls⟩, fun key => ?_⟩
  obtain ⟨subject', hsubject, -⟩ := hops.unsubscribe key hs.keeps
  rw [step, hsubject, Option.map_some, Option.isSome_some]

end Broadcast

/-- **Nobody is left out, nobody is told twice.**  However the calls of `on`, the subscriptions and their ends
overlap, a call of `on` tells its event to those who were subscribed when it took its copy of the observers,
each once per subscription: to some already, to the rest when it gets to them.  After a stop event or `dispose`
it tells nobody.  Unsubscribing never traps. -/
theorem PublishSubject.told_once {O ε : Type} (order : ValueOrder O) (ls : List (SubjectLabel ε O))
    (hroom : ls.countP Broadcast.isSubscribe ≤ UInt64.size) (s : Broadcast (PublishSubject O ε) ε O)
    (log : List (Notice ε O)) (h : Runs.exec (Runs.logged (Broadcast.step PublishSubject.ops order))
      (Broadcast.launch PublishSubject.init, []) ls = some (s, log)) :
    Broadcast.ToldOnce ls s log ∧
      ∀ key, (s.step PublishSubject.ops order (.unsubscribe key)).isSome = true := by
  have h0 : PublishSubject.Keeps (PublishSubject.init : PublishSubject O ε) Audience.empty :=
    ⟨Bag.refines_init, rfl, rfl, rfl⟩
  exact Broadcast.tellsAll_of_exec PublishSubject.implements h0 hroom h

/-- One of two observers leaves while they are told; the end of the sequence reaches the other one only. -/
def leaving : List (SubjectLabel String ℕ) :=
  [.subscribe 7, .subscribe 8, .on (.next "a"), .unsubscribe ⟨0⟩, .tell 0, .on .completed, .tell 0, .tell 1]

theorem leaving_told : ∃ s log,
    Runs.exec (Runs.logged (Broadcast.step PublishSubject.ops (ValueOrder.inserted ℕ)))
      (Broadcast.launch PublishSubject.init, []) leaving = some (s, log) ∧
    ∃ rest, s.sends.find? 1 = some (.completed, rest) ∧
      (Broadcast.told 1 log ++ rest.map fun o => (o, RxEvent.completed)).Perm [(8, RxEvent.completed)] := by
  obtain ⟨⟨s, log⟩, hs, -⟩ : ∃ r,
      Runs.exec (Runs.logged (Broadcast.step PublishSubject.ops (ValueOrder.inserted ℕ)))
        (Broadcast.launch PublishSubject.init, []) leaving = some r ∧ True := Runs.exec_of_any (by decide +kernel)
  obtain ⟨⟨-, htold⟩, -⟩ := PublishSubject.told_once _ leaving (by decide) s log hs
  exact ⟨s, log, hs, htold 1 .completed [8] (by decide +kernel)⟩

/-- **The same of a subject that keeps its last value**, although it goes on holding its observers after a stop
event. -/
theorem BehaviorSubject.told_each_once {O ε : Type} (value : ε) (order : ValueOrder O)
    (ls : List (SubjectLabel ε O)) (hroom : ls.countP Broadcast.isSubscribe ≤ UInt64.size)
    (s : Broadcast (BehaviorSubject O ε) ε O) (log : List (Notice ε O))
    (h : Runs.exec (Runs.logged (Broadcast.step BehaviorSubject.ops order))
      (Broadcast.launch (BehaviorSubject.init value), []) ls = some (s, log)) :
    Broadcast.ToldOnce ls s log ∧
      ∀ key, (s.step BehaviorSubject.ops order (.unsubscribe key)).isSome = true := by
  have h0 : BehaviorSubject.Keeps (BehaviorSubject.init value : BehaviorSubject O ε) Audience.empty :=
    ⟨Bag.refines_init, rfl, rfl⟩
  exact Broadcast.tellsAll_of_exec BehaviorSubject.implements h0 hroom h

end Spotify

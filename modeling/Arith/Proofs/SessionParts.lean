import Arith.Proofs.TokenDelivery
import Mathlib.Logic.Equiv.Basic

namespace Arith

section Filter

variable {α : Type} {keep : α → Bool} {xs : List α} {c : Nat} {x y : α}

theorem getElem?_filter_of_kept (found : xs[c]? = some x) (kept : keep x = true) :
    (xs.filter keep)[(xs.take c).countP keep]? = some x := by
  induction xs generalizing c with
  | nil => cases found
  | cons first xs ih =>
    cases c with
    | zero =>
      cases found
      simp [kept]
    | succ c =>
      have later := ih found
      by_cases first_kept : keep first = true <;> simp [first_kept, later]

theorem filter_set_of_kept (found : xs[c]? = some x) (old : keep x = true) (new : keep y = true) :
    (xs.set c y).filter keep = (xs.filter keep).set ((xs.take c).countP keep) y := by
  induction xs generalizing c with
  | nil => cases found
  | cons first xs ih =>
    cases c with
    | zero =>
      cases found
      simp [old, new]
    | succ c =>
      have later := ih found
      by_cases first_kept : keep first = true <;> simp [first_kept, later]

theorem filter_set_of_dropped (found : xs[c]? = some x) (old : keep x = false) (new : keep y = false) :
    (xs.set c y).filter keep = xs.filter keep := by
  induction xs generalizing c with
  | nil => cases found
  | cons first xs ih =>
    cases c with
    | zero =>
      cases found
      simp [old, new]
    | succ c => simp [List.filter_cons, ih found]

end Filter

namespace Session

def Action.rename (name : Nat → Nat) : Action → Action
  | create scanner => .create scanner
  | scan scanner => .scan scanner
  | expression c => .expression (name c)
  | parse c level => .parse (name c) level
  | advance c => .advance (name c)
  | consume c expected message => .consume (name c) expected message
  | look c => .look (name c)

def Answer.rename (name : Nat → Nat) : Answer → Answer
  | created c => .created (name c)
  | answer => answer

/-- How many parsers of scanner `i` were made before parser `c`. -/
def rank (s : Session) (i c : Nat) : Nat := (s.clients.toList.take c).countP (·.scanner = i)

/-- The scanners as they would be if none but scanner `i` had been read. -/
def alone (i : Nat) (unread scanners : Array Scanner) : Array Scanner :=
  scanners.mapIdx fun j scanner => if j = i then scanner else unread[j]?.getD scanner

/-- Scanner `i` with its parsers. The other scanners are as they were made, and have no parsers. -/
def part (i : Nat) (unread : Array Scanner) (s : Session) : Session :=
  ⟨alone i unread s.scanners, s.clients.filter (·.scanner = i)⟩

def Step.part (i : Nat) (unread : Array Scanner) (done : Step) : Step :=
  ⟨done.answer.rename (done.session.rank i), done.reports, done.received, done.session.part i unread⟩

def Event.part (i : Nat) (unread : Array Scanner) (e : Event) : Event :=
  ⟨e.action.rename (e.step.session.rank i), e.step.part i unread⟩

def partEvents (i : Nat) (unread : Array Scanner) (events : List Event) : List Event :=
  (events.filter (·.scanner? = some i)).map (·.part i unread)

section Part

variable {i : Nat} {unread : Array Scanner} {s : Session}

theorem getElem?_alone_own (scanners : Array Scanner) : (alone i unread scanners)[i]? = scanners[i]? := by
  simp [alone]

theorem alone_setIfInBounds_own (scanners : Array Scanner) (next : Scanner) :
    alone i unread (scanners.setIfInBounds i next) = (alone i unread scanners).setIfInBounds i next := by
  apply Array.ext_getElem?
  intro j
  by_cases same : i = j <;> simp [alone, Array.getElem?_setIfInBounds, same]

theorem alone_setIfInBounds_other {scanners : Array Scanner} (size : unread.size = scanners.size) {j : Nat}
    (other : j ≠ i) (next : Scanner) : alone i unread (scanners.setIfInBounds j next) = alone i unread scanners := by
  apply Array.ext_getElem?
  intro k
  by_cases same : j = k
  · subst same
    by_cases bound : j < scanners.size
    · have known : unread[j]? = some unread[j] := Array.getElem?_eq_getElem (size ▸ bound)
      simp [alone, other, known, bound]
    · simp [alone, bound]
  · simp [alone, same]

theorem alone_self (scanners : Array Scanner) : alone i scanners scanners = scanners := by
  apply Array.ext_getElem?
  intro j
  cases found : scanners[j]? <;> simp [alone, found]

theorem client_part {c : Nat} {client : Client} (named : s.clients[c]? = some client) (own : client.scanner = i) :
    (s.part i unread).clients[s.rank i c]? = some client := by
  rw [← Array.getElem?_toList] at named ⊢
  rw [part, Array.toList_filter]
  exact getElem?_filter_of_kept named (decide_eq_true own)

theorem rank_push (scanners : Array Scanner) (client : Client) :
    rank ⟨scanners, s.clients.push client⟩ i s.clients.size = (s.part i unread).clients.size := by
  simp [rank, part, ← Array.length_toList, List.countP_eq_length_filter]

theorem rank_set (scanners : Array Scanner) (c : Nat) (client : Client) :
    rank ⟨scanners, s.clients.setIfInBounds c client⟩ i c = s.rank i c := by
  have short : (s.clients.toList.take c).length ≤ c := List.length_take_le c _
  simp [rank, List.take_set, List.set_eq_of_length_le short]

section Own

variable (next : Scanner)

theorem part_scan_own :
    part i unread ⟨s.scanners.setIfInBounds i next, s.clients⟩ =
      ⟨(s.part i unread).scanners.setIfInBounds i next, (s.part i unread).clients⟩ := by
  rw [part, alone_setIfInBounds_own]
  rfl

theorem part_push_own (parser : Parser) :
    part i unread ⟨s.scanners.setIfInBounds i next, s.clients.push ⟨parser, i⟩⟩ =
      ⟨(s.part i unread).scanners.setIfInBounds i next, (s.part i unread).clients.push ⟨parser, i⟩⟩ := by
  have clients : (s.clients.push ⟨parser, i⟩).filter (·.scanner = i) = (s.part i unread).clients.push ⟨parser, i⟩ := by
    simp [part]
  rw [part, alone_setIfInBounds_own, clients]
  rfl

theorem part_set_own {c : Nat} {old : Parser} (named : s.clients[c]? = some ⟨old, i⟩) (new : Parser) :
    part i unread ⟨s.scanners.setIfInBounds i next, s.clients.setIfInBounds c ⟨new, i⟩⟩ =
      ⟨(s.part i unread).scanners.setIfInBounds i next,
        (s.part i unread).clients.setIfInBounds (s.rank i c) ⟨new, i⟩⟩ := by
  have clients : (s.clients.setIfInBounds c ⟨new, i⟩).filter (·.scanner = i) =
      (s.part i unread).clients.setIfInBounds (s.rank i c) ⟨new, i⟩ := by
    rw [← Array.getElem?_toList] at named
    apply Array.toList_inj.mp
    rw [Array.toList_filter, Array.toList_setIfInBounds, Array.toList_setIfInBounds, part, Array.toList_filter]
    exact filter_set_of_kept named (decide_eq_true rfl) (decide_eq_true rfl)
  rw [part, alone_setIfInBounds_own, clients]
  rfl

end Own

section Other

variable (size : unread.size = s.scanners.size) {j : Nat} (other : j ≠ i) (next : Scanner)

include size other

theorem part_scan_other : part i unread ⟨s.scanners.setIfInBounds j next, s.clients⟩ = s.part i unread := by
  rw [part, alone_setIfInBounds_other size other]
  rfl

theorem part_push_other (parser : Parser) :
    part i unread ⟨s.scanners.setIfInBounds j next, s.clients.push ⟨parser, j⟩⟩ = s.part i unread := by
  have clients : (s.clients.push ⟨parser, j⟩).filter (·.scanner = i) = s.clients.filter (·.scanner = i) := by
    simp [other]
  rw [part, alone_setIfInBounds_other size other, clients]
  rfl

theorem part_set_other {c : Nat} {old : Parser} (named : s.clients[c]? = some ⟨old, j⟩) (new : Parser) :
    part i unread ⟨s.scanners.setIfInBounds j next, s.clients.setIfInBounds c ⟨new, j⟩⟩ = s.part i unread := by
  have clients : (s.clients.setIfInBounds c ⟨new, j⟩).filter (·.scanner = i) = s.clients.filter (·.scanner = i) := by
    rw [← Array.getElem?_toList] at named
    apply Array.toList_inj.mp
    rw [Array.toList_filter, Array.toList_setIfInBounds, Array.toList_filter]
    exact filter_set_of_dropped named (decide_eq_false other) (decide_eq_false other)
  rw [part, alone_setIfInBounds_other size other, clients]
  rfl

end Other

end Part

theorem Calls.rename {action : Action} {client : Nat} {call : Parsing → Answer × Parsing}
    (calls : Calls action client call) (name : Nat → Nat) : Calls (action.rename name) (name client) call := by
  cases calls <;> constructor

theorem Calls.answer_rename {action : Action} {client : Nat} {call : Parsing → Answer × Parsing}
    (calls : Calls action client call) (name : Nat → Nat) (p : Parsing) : (call p).1.rename name = (call p).1 := by
  cases calls <;> rfl

theorem perform_of_performs {s : Session} {action : Action} {done : Step} (performs : Performs s action done) :
    s.perform action = some done := by
  cases performs with
  | create found => simp [perform, found]
  | scan found => simp [perform, found]
  | call calls named found => exact calls.perform_eq named found

section Step

variable {i : Nat} {unread : Array Scanner} {s : Session} {action : Action} {done : Step}

theorem Performs.part_own (performs : Performs s action done) (own : Event.scanner? ⟨action, done⟩ = some i) :
    Performs (s.part i unread) (action.rename (done.session.rank i)) (done.part i unread) := by
  cases performs with
  | @create scanner source found =>
    have same : scanner = i := Option.some.inj ((scanner?_create _ _ _ _ _ _).symm.trans own)
    subst same
    simp only [Step.part, Action.rename, Answer.rename]
    rw [@rank_push scanner unread, part_push_own]
    exact .create ((getElem?_alone_own _).trans found)
  | @scan scanner source found =>
    have same : scanner = i := by simpa [Event.scanner?] using own
    subst same
    simp only [Step.part, Action.rename, Answer.rename]
    rw [part_scan_own]
    exact .scan ((getElem?_alone_own _).trans found)
  | @call _ c made parser scanner source calls named found =>
    have same : scanner = i := Option.some.inj ((calls.scanner?_eq named _ _).symm.trans own)
    subst same
    simp only [Step.part, outcome]
    rw [calls.answer_rename, part_set_own _ named]
    have there : (s.part scanner unread).clients[s.rank scanner c]? = some ⟨parser, scanner⟩ := client_part named rfl
    rw [← rank_set (s.scanners.setIfInBounds scanner (made (.resume parser source)).2.scanner) c
      ⟨(made (.resume parser source)).2.toParser, scanner⟩] at there ⊢
    exact .call (calls.rename _) there ((getElem?_alone_own _).trans found)

theorem Performs.part_other (performs : Performs s action done) (size : unread.size = s.scanners.size)
    (other : Event.scanner? ⟨action, done⟩ ≠ some i) : done.session.part i unread = s.part i unread := by
  cases performs with
  | @create scanner source found =>
    have foreign : scanner ≠ i := fun same => other ((scanner?_create _ _ _ _ _ _).trans (congrArg some same))
    exact part_push_other size foreign _ _
  | @scan scanner source found =>
    have foreign : scanner ≠ i := by simpa [Event.scanner?] using other
    exact part_scan_other size foreign _
  | @call _ c made parser scanner source calls named found =>
    have foreign : scanner ≠ i := fun same => other ((calls.scanner?_eq named _ _).trans (congrArg some same))
    exact part_set_other size foreign _ named _

end Step

theorem Performs.created_on {s : Session} {i : Nat} {done : Step} (performs : Performs s (.create i) done) :
    Event.scanner? ⟨.create i, done⟩ = some i := by
  cases performs with
  | create => exact scanner?_create _ _ _ _ _ _
  | call calls => cases calls

theorem Performs.size_scanners {s : Session} {action : Action} {done : Step} (performs : Performs s action done) :
    done.session.scanners.size = s.scanners.size := by
  obtain ⟨_, _, _, _, _, scanners, _⟩ := performs.reads
  rw [scanners, Array.size_setIfInBounds]

theorem partEvents_own {i : Nat} {unread : Array Scanner} {event : Event} (own : event.scanner? = some i)
    (events : List Event) :
    partEvents i unread (event :: events) = event.part i unread :: partEvents i unread events := by
  simp [partEvents, own]

theorem partEvents_other {i : Nat} {unread : Array Scanner} {event : Event} (other : event.scanner? ≠ some i)
    (events : List Event) : partEvents i unread (event :: events) = partEvents i unread events := by
  simp [partEvents, other]

theorem run_part {i : Nat} {unread : Array Scanner} {s t : Session} {actions : List Action} {events : List Event}
    (run : s.run actions = some (events, t)) (size : unread.size = s.scanners.size) :
    (s.part i unread).run ((partEvents i unread events).map (·.action)) =
      some (partEvents i unread events, t.part i unread) := by
  refine run_induction (motive := fun s events t => unread.size = s.scanners.size →
    (s.part i unread).run ((partEvents i unread events).map (·.action)) =
      some (partEvents i unread events, t.part i unread)) (fun _ _ => rfl) ?_ run size
  intro s action done events t performed later size
  have performs := performs_of_perform performed
  have rest := later (size.trans performs.size_scanners.symm)
  by_cases own : Event.scanner? ⟨action, done⟩ = some i
  · rw [partEvents_own own, List.map_cons, run_cons_eq_some_iff]
    exact ⟨_, _, perform_of_performs (performs.part_own own), rest, rfl⟩
  · -- the event is left out, and has left the part as it was
    rwa [partEvents_other own, ← performs.part_other size own]

theorem part_ofSources (i : Nat) (sources : List (String × String)) :
    (ofSources sources).part i (ofSources sources).scanners = ofSources sources := by
  rw [part, alone_self]
  rfl

theorem map_action_of_run {s t : Session} {actions : List Action} {events : List Event}
    (run : s.run actions = some (events, t)) : events.map (·.action) = actions := by
  induction actions generalizing s events with
  | nil =>
    cases run
    rfl
  | cons action actions ih =>
    obtain ⟨done, rest, _, behind, rfl⟩ := run_cons_eq_some_iff.mp run
    rw [List.map_cons, ih behind]

def Action.creates : Action → Bool
  | create _ => true
  | _ => false

structure Alike (name : Nat → Nat) (action : Action) (done done' : Step) : Prop where
  answer : done'.answer = done.answer.rename name
  reports : done'.reports = done.reports
  received : done'.received = done.received
  client? : Event.client? ⟨action, done'⟩ = (Event.client? ⟨action, done⟩).map name
  scanner? : Event.scanner? ⟨action, done'⟩ = Event.scanner? ⟨action, done⟩
  client (c : Nat) (own : Event.client? ⟨action, done⟩ = some c) :
    done'.session.clients[name c]? = done.session.clients[c]?
  scanner (i : Nat) (own : Event.scanner? ⟨action, done⟩ = some i) :
    done'.session.scanners[i]? = done.session.scanners[i]?

theorem getElem?_setIfInBounds_congr {α : Type} {xs ys : Array α} {i : Nat} {x : α} (here : xs[i]? = some x)
    (there : ys[i]? = some x) (y : α) : (ys.setIfInBounds i y)[i]? = (xs.setIfInBounds i y)[i]? := by
  rw [getElem?_setIfInBounds_of_found here, getElem?_setIfInBounds_of_found there]

theorem Performs.transfer {s s' : Session} {action : Action} {done : Step} (performs : Performs s action done)
    {name : Nat → Nat} (fresh : action.creates = true → name s.clients.size = s'.clients.size)
    (client : ∀ c client, Event.client? ⟨action, done⟩ = some c → s.clients[c]? = some client →
      name c = c ∧ s'.clients[c]? = some client)
    (scanner : ∀ i, Event.scanner? ⟨action, done⟩ = some i → s'.scanners[i]? = s.scanners[i]?) :
    ∃ done', Performs s' action done' ∧ Alike name action done done' := by
  cases performs with
  | @create i source found =>
    have there : s'.scanners[i]? = some source := (scanner i (scanner?_create _ _ _ _ _ _)).trans found
    have named : name s.clients.size = s'.clients.size := fresh rfl
    refine ⟨_, .create there, ?_⟩
    constructor
    case answer => exact congrArg Answer.created named.symm
    case reports => rfl
    case received => rfl
    case client? => exact congrArg some named.symm
    case scanner? => rw [scanner?_create, scanner?_create]
    case client =>
      rintro c ⟨⟩
      rw [named, Array.getElem?_push_size, Array.getElem?_push_size]
    case scanner =>
      intro j own
      cases (scanner?_create _ _ _ _ _ _).symm.trans own
      exact getElem?_setIfInBounds_congr found there _
  | @scan i source found =>
    have there : s'.scanners[i]? = some source := (scanner i rfl).trans found
    refine ⟨_, .scan there, ?_⟩
    constructor
    case answer => rfl
    case reports => rfl
    case received => rfl
    case client? => rfl
    case scanner? => rfl
    case client => nofun
    case scanner =>
      rintro j ⟨⟩
      exact getElem?_setIfInBounds_congr found there _
  | @call _ c made parser i source calls named found =>
    have there : s'.scanners[i]? = some source := (scanner i (calls.scanner?_eq named _ _)).trans found
    obtain ⟨same, named'⟩ := client c _ (calls.client?_eq _) named
    refine ⟨_, .call calls named' there, ?_⟩
    constructor
    case answer => exact (calls.answer_rename name _).symm
    case reports => rfl
    case received => rfl
    case client? => rw [calls.client?_eq, calls.client?_eq, Option.map_some, same]
    case scanner? => rw [calls.scanner?_eq named, calls.scanner?_eq named']
    case client =>
      intro d own
      cases (calls.client?_eq _).symm.trans own
      rw [same]
      exact getElem?_setIfInBounds_congr named named' _
    case scanner =>
      intro j own
      cases (calls.scanner?_eq named _ _).symm.trans own
      exact getElem?_setIfInBounds_congr found there _

section Places

variable {s : Session} {action : Action} {done : Step} (performs : Performs s action done)

include performs

theorem Performs.scanner_after {c : Nat} (own : Event.client? ⟨action, done⟩ = some c) :
    ∃ client, done.session.clients[c]? = some client ∧ Event.scanner? ⟨action, done⟩ = some client.scanner := by
  cases performs with
  | @create i source found =>
    cases own
    exact ⟨_, Array.getElem?_push_size, scanner?_create _ _ _ _ _ _⟩
  | scan => cases own
  | @call _ d made parser i source calls named found =>
    cases (calls.client?_eq _).symm.trans own
    exact ⟨_, getElem?_setIfInBounds_of_found named _, calls.scanner?_eq named _ _⟩

theorem Performs.scanner_before {c : Nat} {client : Client} (own : Event.client? ⟨action, done⟩ = some c)
    (named : s.clients[c]? = some client) : Event.scanner? ⟨action, done⟩ = some client.scanner := by
  cases performs with
  | create =>
    cases own
    rw [Array.getElem?_size] at named
    cases named
  | scan => cases own
  | @call _ d made parser i source calls named' found =>
    cases (calls.client?_eq _).symm.trans own
    rw [named'] at named
    cases named
    exact calls.scanner?_eq named' _ _

theorem Performs.scanners_elsewhere {k : Nat} (other : Event.scanner? ⟨action, done⟩ ≠ some k) :
    done.session.scanners[k]? = s.scanners[k]? := by
  obtain ⟨i, _, _, own, _, scanners, _⟩ := performs.reads
  rw [scanners]
  exact Array.getElem?_setIfInBounds_ne fun same => other (own.trans (congrArg some same))

theorem Performs.size_clients :
    done.session.clients.size = s.clients.size + if action.creates then 1 else 0 := by
  cases performs with
  | create => simp [Action.creates]
  | scan => rfl
  | call calls => cases calls <;> simp [Action.creates, outcome]

end Places

/-- The numbers of two new parsers, changed over where each action makes one. -/
def exchanged (s : Session) (a b : Action) : Equiv.Perm Nat :=
  if a.creates && b.creates then Equiv.swap s.clients.size (s.clients.size + 1) else .refl Nat

section Exchanged

variable {s : Session} {a b : Action}

theorem exchanged_old {c : Nat} (old : c < s.clients.size) : exchanged s a b c = c := by
  unfold exchanged
  split
  · exact Equiv.swap_apply_of_ne_of_ne (Nat.ne_of_lt old) (Nat.ne_of_lt (Nat.lt_succ_of_lt old))
  · rfl

theorem exchanged_first (creates : a.creates = true) :
    exchanged s a b s.clients.size = s.clients.size + if b.creates then 1 else 0 := by
  cases both : b.creates <;> simp [exchanged, creates, both]

theorem exchanged_second (creates : b.creates = true) :
    exchanged s a b (s.clients.size + if a.creates then 1 else 0) = s.clients.size := by
  cases both : a.creates <;> simp [exchanged, creates, both]

theorem exchanged_unless (single : a.creates = false ∨ b.creates = false) : exchanged s a b = .refl Nat := by
  rcases single with none | none <;> simp [exchanged, none]

theorem getElem?_clients_exchanged (c : Nat) : s.clients[exchanged s a b c]? = s.clients[c]? := by
  by_cases old : c < s.clients.size
  · rw [exchanged_old old]
  · have beyond : ¬ exchanged s a b c < s.clients.size := by
      intro inside
      have same := (exchanged s a b).injective (exchanged_old (a := a) (b := b) inside)
      exact old (same ▸ inside)
    rw [Array.getElem?_eq_none (Nat.le_of_not_lt old), Array.getElem?_eq_none (Nat.le_of_not_lt beyond)]

end Exchanged

/-- Carried out the other way round, `a` and `b` do the same and lead to the same session, in which new parsers are
numbered in the order in which they were made. -/
structure Exchange (s : Session) (a b : Action) (da db db' da' : Step) : Prop where
  first : s.perform b = some db'
  second : db'.session.perform a = some da'
  alike : Alike (exchanged s a b) a da da'
  alike' : Alike (exchanged s a b) b db db'
  scanners : da'.session.scanners = db.session.scanners
  clients (c : Nat) : da'.session.clients[exchanged s a b c]? = db.session.clients[c]?

theorem Answer.rename_refl (answer : Answer) : answer.rename (Equiv.refl Nat) = answer := by
  cases answer <;> rfl

theorem Exchange.same {s : Session} {a b : Action} {da db db' da' : Step} (exchange : Exchange s a b da db db' da')
    (single : a.creates = false ∨ b.creates = false) :
    da'.answer = da.answer ∧ db'.answer = db.answer ∧ da'.session = db.session := by
  obtain ⟨_, _, alike, alike', scanners, clients⟩ := exchange
  simp only [exchanged_unless single, Equiv.refl_apply] at alike alike' clients
  refine ⟨alike.answer.trans da.answer.rename_refl, alike'.answer.trans db.answer.rename_refl, ?_⟩
  have clients : da'.session.clients = db.session.clients := Array.ext_getElem? clients
  calc da'.session
    _ = ⟨da'.session.scanners, da'.session.clients⟩ := rfl
    _ = ⟨db.session.scanners, db.session.clients⟩ := by rw [scanners, clients]

theorem Alike.unmoved {name : Nat → Nat} (injective : Function.Injective name) {action : Action} {done done' : Step}
    {c : Nat} (alike : Alike name action done done') (other : Event.client? ⟨action, done⟩ ≠ some c) :
    Event.client? ⟨action, done'⟩ ≠ some (name c) := by
  rw [alike.client?]
  intro moved
  obtain ⟨d, own, same⟩ := Option.map_eq_some_iff.mp moved
  exact other (own.trans (congrArg some (injective same)))

section Apart

variable {s : Session} {a b : Action} {da db : Step} (first : Performs s a da) (second : Performs da.session b db)
  (apart : Event.scanner? ⟨a, da⟩ ≠ Event.scanner? ⟨b, db⟩)

include first second apart

theorem clients_apart {c : Nat} (mine : Event.client? ⟨a, da⟩ = some c) : Event.client? ⟨b, db⟩ ≠ some c := by
  intro yours
  obtain ⟨client, named, scanner⟩ := first.scanner_after mine
  exact apart (scanner.trans (second.scanner_before yours named).symm)

theorem performs_first : ∃ db', Performs s b db' ∧ Alike (exchanged s a b) b db db' := by
  refine second.transfer (fun creates => ?_) (fun c client own named => ?_) (fun j own => ?_)
  · rw [first.size_clients]
    exact exchanged_second creates
  · rw [first.elsewhere fun mine => clients_apart first second apart mine own] at named
    exact ⟨exchanged_old (Array.getElem?_eq_some_iff.mp named).1, named⟩
  · exact (first.scanners_elsewhere fun mine => apart (mine.trans own.symm)).symm

theorem performs_second {db' : Step} (performs : Performs s b db') (alike : Alike (exchanged s a b) b db db') :
    ∃ da', Performs db'.session a da' ∧ Alike (exchanged s a b) a da da' := by
  refine first.transfer (fun creates => ?_) (fun c client own named => ?_) (fun i own => ?_)
  · rw [performs.size_clients]
    exact exchanged_first creates
  · have still := performs.elsewhere
      (alike.unmoved (exchanged s a b).injective (clients_apart first second apart own))
    rw [exchanged_old (Array.getElem?_eq_some_iff.mp named).1] at still ⊢
    exact ⟨rfl, still.trans named⟩
  · exact performs.scanners_elsewhere fun yours => apart (own.trans (yours.symm.trans alike.scanner?))

theorem exchange_of_apart : ∃ db' da', Exchange s a b da db db' da' := by
  obtain ⟨db', performs, alike'⟩ := performs_first first second apart
  obtain ⟨da', performs', alike⟩ := performs_second first second apart performs alike'
  refine ⟨db', da', perform_of_performs performs, perform_of_performs performs', alike, alike', ?_, fun c => ?_⟩
  -- no scanner and no parser is touched by both actions, so each is as the last to touch it left it
  · apply Array.ext_getElem?
    intro k
    by_cases mine : Event.scanner? ⟨a, da⟩ = some k
    · exact (alike.scanner k mine).trans (second.scanners_elsewhere fun yours => apart (mine.trans yours.symm)).symm
    have still := performs'.scanners_elsewhere (alike.scanner? ▸ mine)
    by_cases yours : Event.scanner? ⟨b, db⟩ = some k
    · exact still.trans (alike'.scanner k yours)
    rw [still, performs.scanners_elsewhere (alike'.scanner? ▸ yours), second.scanners_elsewhere yours,
      first.scanners_elsewhere mine]
  · have injective := (exchanged s a b).injective
    by_cases mine : Event.client? ⟨a, da⟩ = some c
    · exact (alike.client c mine).trans (second.elsewhere (clients_apart first second apart mine)).symm
    have still := performs'.elsewhere (alike.unmoved injective mine)
    by_cases yours : Event.client? ⟨b, db⟩ = some c
    · exact still.trans (alike'.client c yours)
    rw [still, performs.elsewhere (alike'.unmoved injective yours), getElem?_clients_exchanged,
      second.elsewhere yours, first.elsewhere mine]

end Apart

/-- With all else left out, the actions around scanner `i` can be carried out by themselves. They see and do the same,
and the scanner and its parsers end as they did. -/
structure GoesAlone (sources : List (String × String)) (events : List Event) (t : Session) (i : Nat) : Prop where
  run : (ofSources sources).run ((partEvents i (ofSources sources).scanners events).map (·.action)) =
    some (partEvents i (ofSources sources).scanners events, t.part i (ofSources sources).scanners)
  scanner (u : Session) : (u.part i (ofSources sources).scanners).scanners[i]? = u.scanners[i]?
  client (u : Session) (c : Nat) (client : Client) (named : u.clients[c]? = some client) (own : client.scanner = i) :
    (u.part i (ofSources sources).scanners).clients[u.rank i c]? = some client

theorem goesAlone_of_run {sources : List (String × String)} {t : Session} {actions : List Action}
    {events : List Event} (run : (ofSources sources).run actions = some (events, t)) (i : Nat) :
    GoesAlone sources events t i where
  run := by
    have alone := run_part (i := i) run rfl
    rwa [part_ofSources] at alone
  scanner u := getElem?_alone_own u.scanners
  client _ _ _ named own := client_part named own

/-- What is done around one scanner does not depend on what is done around the others, and neither does the order of
what is done around different scanners matter. -/
theorem scanners_independent {sources : List (String × String)} {t : Session} {actions : List Action}
    {events : List Event} (run : (ofSources sources).run actions = some (events, t)) :
    events.map (·.action) = actions ∧ (∀ i, GoesAlone sources events t i) ∧
      ∀ (s : Session) (a b : Action) (da db : Step), s.perform a = some da → da.session.perform b = some db →
        Event.scanner? ⟨a, da⟩ ≠ Event.scanner? ⟨b, db⟩ →
        ∃ db' da', Exchange s a b da db db' da' ∧
          (a.creates = false ∨ b.creates = false →
            da'.answer = da.answer ∧ db'.answer = db.answer ∧ da'.session = db.session) := by
  refine ⟨map_action_of_run run, goesAlone_of_run run, fun s a b da db performed performed' apart => ?_⟩
  obtain ⟨db', da', exchange⟩ :=
    exchange_of_apart (performs_of_perform performed) (performs_of_perform performed') apart
  exact ⟨db', da', exchange, exchange.same⟩

theorem scanners_independent_two_texts :
    ∃ events t,
      (ofSources [("1 + (2", ""), ("3 * 4 ;", "")]).run
          [.create 1, .create 0, .advance 0, .scan 0, .expression 1, .expression 0] = some (events, t) ∧
        GoesAlone [("1 + (2", ""), ("3 * 4 ;", "")] events t 0 ∧
        GoesAlone [("1 + (2", ""), ("3 * 4 ;", "")] events t 1 ∧
        ∃ da db db' da',
          Exchange (ofSources [("1 + (2", ""), ("3 * 4 ;", "")]) (.create 1) (.create 0) da db db' da' := by
  have ran : ((ofSources [("1 + (2", ""), ("3 * 4 ;", "")]).run
      [.create 1, .create 0, .advance 0, .scan 0, .expression 1, .expression 0]).isSome = true := by decide +kernel
  obtain ⟨⟨events, t⟩, run⟩ := Option.isSome_iff_exists.mp ran
  obtain ⟨_, alone, exchanges⟩ := scanners_independent run
  obtain ⟨da, _, first, behind, _⟩ := run_cons_eq_some_iff.mp run
  obtain ⟨db, _, second, _⟩ := run_cons_eq_some_iff.mp behind
  have apart : Event.scanner? ⟨.create 1, da⟩ ≠ Event.scanner? ⟨.create 0, db⟩ := by
    rw [(performs_of_perform first).created_on, (performs_of_perform second).created_on]
    decide
  obtain ⟨db', da', exchange, _⟩ := exchanges _ _ _ _ _ first second apart
  exact ⟨events, t, run, alone 0, alone 1, da, db, db', da', exchange⟩

end Session

end Arith

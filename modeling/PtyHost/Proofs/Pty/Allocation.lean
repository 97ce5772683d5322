import PtyHost.Pty.Allocator

/-!
# One slave for each master

Whatever is done with an allocator, and whichever calls on the operating system fail, a master is
opened only while none is open, and its slave is handed out once. What may be done next can be read
off what has been done: it depends on the last master that was opened and on what has happened
since, and on nothing before.

Main statements: `passes`, what an operation can do; `Reflects.passes`, what is kept is what has
happened; `log_congr`, what can be seen of an allocator; and `slave_handed_out_once`.
-/

namespace PtyHost.Pty

/-- An operation that was done, with the calls that were made and the verdict. -/
structure Entry where
  operation : Operation
  calls : List Call
  verdict : Except SessionError Unit

namespace Entry

/-- The slave of the master that was opened, if one was. -/
def opened? (e : Entry) : Option Path :=
  match e.operation, e.verdict with
  | .openMaster o, .ok () => o.outcome.toOption
  | _, _ => none

/-- Whether a slave was handed out. -/
def hands (e : Entry) : Bool :=
  match e.operation, e.verdict with
  | .openSlave _, .ok () => true
  | _, _ => false

/-- Whether it was the closing of the master. -/
def closes (e : Entry) : Bool :=
  match e.operation with
  | .close => true
  | _ => false

/-- Whether the operation was refused: it failed before any call on the operating system. -/
def isRefused (e : Entry) : Bool := !e.verdict.toBool && e.calls.isEmpty

end Entry

/-- Whether an operation is a request to the open master, or to its slave by name. -/
def Operation.isRequest : Operation → Bool
  | .setWindowSize .. | .setWriteable .. | .duplicate _ => true
  | .openMaster _ | .openSlave _ | .close => false

/-- In a log, a master is open that was opened with the slave of this name, and this is what has
been done since. -/
def Since (log : List Entry) (slave : Path) (later : List Entry) : Prop :=
  ∃ earlier e, log = earlier ++ e :: later ∧ e.opened? = some slave ∧
    ∀ x ∈ later, x.closes = false ∧ x.opened? = none

/-- In a log, a master is open. -/
def IsOpen (log : List Entry) : Prop := ∃ slave later, Since log slave later

/-- In a log, the slave of the master that is open was handed out. -/
def HandedOut (log : List Entry) : Prop :=
  ∃ slave later, Since log slave later ∧ ∃ e ∈ later, e.hands = true

section

variable {log later : List Entry} {slave other : Path} {e : Entry}

/-- The last entry of a log is the last of what has been done since some other one. -/
theorem concat_eq_append_cons {x last : Entry} {earlier before : List Entry}
    (h : log ++ [e] = earlier ++ x :: before.concat last) :
    log = earlier ++ x :: before ∧ e = last := by
  rw [List.concat_eq_append, ← List.cons_append, ← List.append_assoc] at h
  exact List.append_singleton_inj.1 h

/-- A master that was opened last is open, and nothing has been done since. -/
theorem since_concat_of_opened (h : e.opened? = some other) :
    Since (log ++ [e]) slave later ↔ slave = other ∧ later = [] := by
  constructor
  · rintro ⟨earlier, x, hlog, hx, hlater⟩
    rcases List.eq_nil_or_concat later with rfl | ⟨before, last, rfl⟩
    · obtain ⟨-, rfl⟩ := List.append_singleton_inj.1 hlog
      exact ⟨Option.some.inj (hx.symm.trans h), rfl⟩
    · obtain ⟨-, rfl⟩ := concat_eq_append_cons hlog
      have hnone : e.opened? = none := (hlater e (by simp)).2
      cases hnone.symm.trans h
  · rintro ⟨rfl, rfl⟩
    exact ⟨log, e, rfl, h, by simp⟩

/-- Something that does not open a master is one more thing that was done since, unless it closes
the master. -/
theorem since_concat_of_not_opened (h : e.opened? = none) :
    Since (log ++ [e]) slave later ↔
      e.closes = false ∧ ∃ before, later = before ++ [e] ∧ Since log slave before := by
  constructor
  · rintro ⟨earlier, x, hlog, hx, hlater⟩
    rcases List.eq_nil_or_concat later with rfl | ⟨before, last, rfl⟩
    · obtain ⟨-, rfl⟩ := List.append_singleton_inj.1 hlog
      cases h.symm.trans hx
    · obtain ⟨rfl, rfl⟩ := concat_eq_append_cons hlog
      simp only [List.concat_eq_append, List.forall_mem_append, List.forall_mem_singleton]
        at hlater ⊢
      exact ⟨hlater.2.1, before, rfl, earlier, x, rfl, hx, hlater.1⟩
  · rintro ⟨hcloses, before, rfl, earlier, x, rfl, hx, hbefore⟩
    refine ⟨earlier, x, by simp, hx, ?_⟩
    rw [List.forall_mem_append]
    exact ⟨hbefore, List.forall_mem_singleton.2 ⟨hcloses, h⟩⟩

/-- The slave of a master that stays open was handed out if it was before, or if it is now. -/
theorem handedOut_concat (h : e.opened? = none) (hcloses : e.closes = false) :
    HandedOut (log ++ [e]) ↔
      HandedOut log ∨ e.hands = true ∧ IsOpen log := by
  simp only [HandedOut, IsOpen, since_concat_of_not_opened h, hcloses, true_and]
  constructor
  · rintro ⟨slave, _, ⟨before, rfl, hsince⟩, x, hx, hhands⟩
    rcases List.mem_append.1 hx with hbefore | hlast
    · exact .inl ⟨slave, before, hsince, x, hbefore, hhands⟩
    · obtain rfl := List.mem_singleton.1 hlast
      exact .inr ⟨hhands, slave, before, hsince⟩
  · rintro (⟨slave, before, hsince, x, hx, hhands⟩ | ⟨hhands, slave, before, hsince⟩)
    · exact ⟨slave, _, ⟨before, rfl, hsince⟩, x, List.mem_append_left _ hx, hhands⟩
    · exact ⟨slave, _, ⟨before, rfl, hsince⟩, e, List.mem_concat_self, hhands⟩

end

namespace Allocator

/-- What an operation is entered as. -/
def entry (d : Allocator) (o : Operation) : Entry := ⟨o, (d.perform o).calls, (d.perform o).verdict⟩

/-- What is kept after some operations. -/
def run (d : Allocator) (operations : List Operation) : Allocator :=
  operations.foldl (fun d o ↦ (d.perform o).allocator) d

/-- What is entered in the course of some operations. -/
def log (d : Allocator) : List Operation → List Entry
  | [] => []
  | o :: rest => d.entry o :: log (d.perform o).allocator rest

/-- What becomes of an allocator in an operation that is entered: a master is opened while there is
none, the slave is handed out that is free, the master is closed, or all stays as it is. -/
inductive Passes (d : Allocator) (e : Entry) : Allocator → Prop
  | opens {slave : Path} (closed : d.slave? = none) (opened : e.opened? = some slave)
      (hands : e.hands = false) (closes : e.closes = false) : Passes d e ⟨some slave, false⟩
  | hands {slave : Path} (isOpen : d.slave? = some slave) (free : d.handedOut = false)
      (opened : e.opened? = none) (hands : e.hands = true) (closes : e.closes = false) :
      Passes d e { d with handedOut := true }
  | closes (opened : e.opened? = none) (hands : e.hands = false) (closes : e.closes = true) :
      Passes d e { d with slave? := none }
  | keeps (opened : e.opened? = none) (hands : e.hands = false) (closes : e.closes = false) :
      Passes d e d

/-- A request leaves what is kept as it is. -/
theorem allocator_of_isRequest {o : Operation} (h : o.isRequest = true) (d : Allocator) :
    (d.perform o).allocator = d := by
  cases o with
  | openMaster | openSlave | close => cases h
  | setWindowSize | duplicate => rfl
  | setWriteable _ mode => cases mode <;> rfl

/-- Every operation does one of these things. -/
theorem passes (d : Allocator) (o : Operation) :
    Passes d (d.entry o) (d.perform o).allocator := by
  obtain ⟨slave?, handedOut⟩ := d
  cases o with
  | openMaster o =>
    cases houtcome : o.outcome with
    | error e =>
      have hkept :
          (perform ⟨slave?, handedOut⟩ (.openMaster o)).allocator = ⟨slave?, handedOut⟩ := by
        cases slave? <;> simp [perform, openMaster, houtcome]
      rw [hkept]
      cases slave? <;>
        exact .keeps (by simp [entry, Entry.opened?, perform, openMaster, device,
          Device.openMaster, houtcome, Except.map]) rfl rfl
    | ok slave =>
      cases slave? with
      | none =>
        have hopened : (perform ⟨none, handedOut⟩ (.openMaster o)).allocator =
            ⟨some slave, false⟩ := by simp [perform, openMaster, houtcome]
        rw [hopened]
        exact .opens rfl (by simp [entry, Entry.opened?, perform, openMaster, device,
          Device.openMaster, houtcome, Except.map, Except.toOption]) rfl rfl
      | some other => exact .keeps rfl rfl rfl
  | openSlave answer =>
    cases slave? with
    | none => exact .keeps rfl rfl rfl
    | some slave =>
      cases handedOut with
      | true => exact .keeps rfl rfl rfl
      | false =>
        cases answer with
        | ok => exact .hands rfl rfl rfl rfl rfl
        | error e => exact .keeps rfl rfl rfl
  | close => exact .closes rfl rfl rfl
  | setWindowSize | setWriteable | duplicate =>
    rw [allocator_of_isRequest rfl]
    exact .keeps rfl rfl rfl

/-- An operation that has failed leaves what is kept as it is. -/
theorem allocator_of_failed {d : Allocator} {o : Operation}
    (h : (d.perform o).verdict.toBool = false) : (d.perform o).allocator = d := by
  cases o with
  | close => cases h
  | setWindowSize | setWriteable | duplicate => exact allocator_of_isRequest rfl d
  | openMaster o =>
    obtain ⟨slave?, handedOut⟩ := d
    cases slave? with
    | some slave => rfl
    | none =>
      cases houtcome : o.outcome with
      | error e => simp [perform, openMaster, houtcome]
      | ok slave =>
        simp [perform, openMaster, device, Device.openMaster, houtcome, Except.map,
          Except.toBool] at h
  | openSlave answer =>
    obtain ⟨slave?, handedOut⟩ := d
    cases slave? <;> cases handedOut <;> cases answer <;> first | rfl | cases h

/-- Operations lead from an allocator over what is entered to another one. -/
inductive Leads : Allocator → List Entry → Allocator → Prop
  | nil (d : Allocator) : Leads d [] d
  | cons {d next last : Allocator} {e : Entry} {rest : List Entry} (first : Passes d e next)
      (more : Leads next rest last) : Leads d (e :: rest) last

/-- What is done leads from where it begins to where it ends. -/
theorem leads_log (d : Allocator) (operations : List Operation) :
    Leads d (d.log operations) (d.run operations) := by
  induction operations generalizing d with
  | nil => exact .nil d
  | cons o rest ih => exact .cons (passes d o) (ih _)

/-- What is done in two parts comes by what there is in between. -/
theorem Leads.exists_of_append {d last : Allocator} {first rest : List Entry}
    (h : Leads d (first ++ rest) last) : ∃ next, Leads d first next ∧ Leads next rest last := by
  induction first generalizing d with
  | nil => exact ⟨d, .nil d, h⟩
  | cons e first ih =>
    cases h with
    | cons hfirst hmore =>
      obtain ⟨next, hleads, hrest⟩ := ih hmore
      exact ⟨next, .cons hfirst hleads, hrest⟩

/-- What is kept is what has happened: the name of the slave of the master that is open, and whether
that slave was handed out. -/
structure Reflects (log : List Entry) (d : Allocator) : Prop where
  name : ∀ slave, d.slave? = some slave ↔ ∃ later, Since log slave later
  note : d.isOpen = true → (d.handedOut = true ↔ HandedOut log)

/-- A new allocator reflects that nothing has happened. -/
theorem Reflects.new : Reflects [] {} where
  name := by
    intro slave
    constructor
    · intro h
      cases h
    · rintro ⟨later, earlier, e, hlog, -⟩
      simp at hlog
  note := by
    intro h
    cases h

/-- What is kept reflects one more thing that has happened. -/
theorem Reflects.passes {log : List Entry} {d next : Allocator} {e : Entry} (h : Reflects log d)
    (hpasses : Passes d e next) : Reflects (log ++ [e]) next := by
  have hstays (hopened : e.opened? = none) (hcloses : e.closes = false) (slave : Path) :
      d.slave? = some slave ↔ ∃ later, Since (log ++ [e]) slave later := by
    rw [h.name slave]
    simp only [since_concat_of_not_opened hopened, hcloses, true_and]
    constructor
    · rintro ⟨later, hsince⟩
      exact ⟨_, later, rfl, hsince⟩
    · rintro ⟨_, before, -, hsince⟩
      exact ⟨before, hsince⟩
  cases hpasses with
  | opens closed opened hands closes =>
    refine ⟨fun name ↦ ?_, fun _ ↦ ?_⟩
    · simp [since_concat_of_opened opened, eq_comm]
    · simp [HandedOut, since_concat_of_opened opened]
  | @hands slave isOpen free opened hands closes =>
    refine ⟨hstays opened closes, fun _ ↦ ?_⟩
    rw [handedOut_concat opened closes]
    exact iff_of_true rfl (.inr ⟨hands, slave, (h.name slave).1 isOpen⟩)
  | closes opened hands closes =>
    refine ⟨fun name ↦ ?_, fun hopen ↦ by cases hopen⟩
    simp [since_concat_of_not_opened opened, closes]
  | keeps opened hands closes =>
    refine ⟨hstays opened closes, fun hopen ↦ ?_⟩
    rw [handedOut_concat opened closes, h.note hopen, hands]
    simp

/-- What is kept reflects everything that has happened. -/
theorem Reflects.leads {log more : List Entry} {d last : Allocator} (h : Reflects log d)
    (hleads : Leads d more last) : Reflects (log ++ more) last := by
  induction hleads generalizing log with
  | nil d => simpa using h
  | cons hfirst _ ih =>
    rw [List.append_cons]
    exact ih (h.passes hfirst)

/-- As long as no master is opened, the slave is handed out once at most, and not at all if it is
not free. -/
theorem Leads.countP_hands_le {d last : Allocator} {log : List Entry} (h : Leads d log last)
    (hopened : ∀ e ∈ log, e.opened? = none) :
    log.countP Entry.hands ≤ if d.isOpen && !d.handedOut then 1 else 0 := by
  induction h with
  | nil => exact Nat.zero_le _
  | @cons d next last e rest hfirst hmore ih =>
    obtain ⟨hnone, hrest⟩ := List.forall_mem_cons.1 hopened
    have hcount := ih hrest
    cases hfirst with
    | opens closed opened => cases hnone.symm.trans opened
    | hands isOpen free opened hands closes =>
      rw [List.countP_cons_of_pos hands]
      simpa [Allocator.isOpen, isOpen, free] using hcount
    | closes opened hands closes =>
      rw [List.countP_cons_of_neg (by simp [hands])]
      exact Nat.le_trans hcount (Nat.zero_le _)
    | keeps opened hands closes =>
      rw [List.countP_cons_of_neg (by simp [hands])]
      exact hcount

/-- All that can be seen of an allocator is the device that it keeps. -/
theorem perform_congr {d other : Allocator} (h : d.device = other.device) (o : Operation) :
    d.entry o = other.entry o ∧
      (d.perform o).allocator.device = (other.perform o).allocator.device := by
  obtain ⟨slave?, handedOut⟩ := d
  obtain ⟨otherSlave?, otherHandedOut⟩ := other
  cases slave? with
  | some slave =>
    cases otherSlave? with
    | none => cases h
    | some otherSlave =>
      obtain ⟨rfl, rfl⟩ := Device.opened.inj h
      exact ⟨rfl, rfl⟩
  | none =>
    cases otherSlave? with
    | some => cases h
    | none =>
      cases o with
      | openMaster o =>
        refine ⟨rfl, ?_⟩
        cases houtcome : o.outcome <;> simp [perform, openMaster, houtcome, device]
      | openSlave | close | setWindowSize | duplicate => exact ⟨rfl, rfl⟩
      | setWriteable _ mode => cases mode <;> exact ⟨rfl, rfl⟩

/-- What is done comes to the same for allocators that keep the same device. -/
theorem log_congr {d other : Allocator} (h : d.device = other.device)
    (operations : List Operation) : d.log operations = other.log operations := by
  induction operations generalizing d other with
  | nil => rfl
  | cons o rest ih =>
    obtain ⟨hentry, hdevice⟩ := perform_congr h o
    rw [log, log, hentry, ih hdevice]

/- The note that is left of a master that was closed does not show in the device. -/
example : run {} [.openMaster { name := .ok ⟨[1]⟩ }, .openSlave (.ok ()), .close] = ⟨none, true⟩ :=
  rfl

/-- A master is open exactly if one is open in what has happened. -/
theorem Reflects.isOpen_iff {log : List Entry} {d : Allocator} (h : Reflects log d) :
    d.isOpen = true ↔ IsOpen log :=
  Option.isSome_iff_exists.trans (exists_congr h.name)

/-- The opening of a master is refused exactly while one is open. Otherwise it comes to what the
calls come to. -/
theorem entry_openMaster (d : Allocator) (o : Opening) :
    ((d.entry (.openMaster o)).isRefused = true ↔ d.isOpen = true) ∧
      ((d.entry (.openMaster o)).isRefused = false →
        (d.entry (.openMaster o)).calls = o.calls ∧
          (d.entry (.openMaster o)).verdict.toBool = o.outcome.toBool) := by
  obtain ⟨slave?, handedOut⟩ := d
  cases slave? with
  | some slave => exact ⟨iff_of_true rfl rfl, fun h ↦ by cases h⟩
  | none =>
    have hcalls : (entry ⟨none, handedOut⟩ (.openMaster o)).calls = o.calls := rfl
    refine ⟨iff_of_false ?_ Bool.false_ne_true, fun _ ↦ ⟨hcalls, ?_⟩⟩
    · simp [Entry.isRefused, hcalls, Opening.calls, Opening.untilFailure]
    · cases houtcome : o.outcome <;>
        simp [entry, perform, openMaster, device, Device.openMaster, houtcome, Except.map,
          Except.toBool]

/-- The opening of the slave is refused exactly if there is none or it was handed out. Otherwise it
comes to what the operating system answers. -/
theorem entry_openSlave (d : Allocator) (answer : Except OsError Unit) :
    ((d.entry (.openSlave answer)).isRefused = true ↔ d.isOpen = false ∨ d.handedOut = true) ∧
      ((d.entry (.openSlave answer)).isRefused = false →
        (d.entry (.openSlave answer)).calls = d.slave?.toList.map Call.openSlave ∧
          (d.entry (.openSlave answer)).verdict.toBool = answer.toBool) := by
  obtain ⟨slave?, handedOut⟩ := d
  cases slave? with
  | none => exact ⟨iff_of_true rfl (.inl rfl), fun h ↦ by cases h⟩
  | some slave =>
    cases handedOut with
    | true => exact ⟨iff_of_true rfl (.inr rfl), fun h ↦ by cases h⟩
    | false =>
      refine ⟨iff_of_false ?_ (by simp [isOpen]), fun _ ↦ ⟨rfl, ?_⟩⟩
      · simp [Entry.isRefused, entry, perform, openSlave]
      · cases answer <;> rfl

/-- A request is refused exactly while no master is open. -/
theorem entry_of_isRequest (d : Allocator) {o : Operation} (h : o.isRequest = true) :
    (d.entry o).isRefused = true ↔ d.isOpen = false := by
  obtain ⟨slave?, handedOut⟩ := d
  cases o with
  | openMaster | openSlave | close => cases h
  | setWindowSize | duplicate =>
    cases slave? with
    | none => exact iff_of_true rfl rfl
    | some => simp [Entry.isRefused, entry, perform, request, isOpen]
  | setWriteable _ mode =>
    cases slave? with
    | none => cases mode <;> exact iff_of_true rfl rfl
    | some => cases mode <;> simp [Entry.isRefused, entry, perform, request, isOpen]

/-- One slave is handed out for each master. Whatever has been done with an allocator, and
whichever calls have failed: its slave has a name, and requests are answered, exactly while a
master is open, which is since one was opened and as long as it was not closed; a master is refused
exactly while one is open, and a slave exactly if no master is open or the slave of this one was
handed out, both before any call is made; otherwise both come to what the operating system answers.
Between two masters one slave at most is handed out. What fails leaves everything as it is, so the
opening of a slave that has failed may be tried again; closing twice is closing once; and what is
done after the master was closed comes to what it would with a new allocator. -/
theorem slave_handed_out_once (operations : List Operation) :
    let d := run {} operations
    let l := log {} operations
    (∀ slave, d.slave? = some slave ↔ ∃ later, Since l slave later) ∧
      (∀ o : Operation, o.isRequest = true → ((d.entry o).isRefused = true ↔ ¬ IsOpen l)) ∧
      (∀ o,
        ((d.entry (.openMaster o)).isRefused = true ↔ IsOpen l) ∧
          ((d.entry (.openMaster o)).isRefused = false →
            (d.entry (.openMaster o)).verdict.toBool = o.outcome.toBool)) ∧
      (∀ answer,
        ((d.entry (.openSlave answer)).isRefused = true ↔ ¬ IsOpen l ∨ HandedOut l) ∧
          ((d.entry (.openSlave answer)).isRefused = false →
            (d.entry (.openSlave answer)).verdict.toBool = answer.toBool)) ∧
      (∀ before between after, l = before ++ (between ++ after) →
        (∀ e ∈ between, e.opened? = none) → between.countP Entry.hands ≤ 1) ∧
      (∀ o, (d.perform o).verdict.toBool = false → (d.perform o).allocator = d) ∧
      (∀ e answer, (d.perform (.openSlave (.error e))).allocator.perform (.openSlave answer) =
        d.perform (.openSlave answer)) ∧
      (d.perform .close).allocator.perform .close = ⟨(d.perform .close).allocator, [], .ok ()⟩ ∧
      ∀ more, (d.perform .close).allocator.log more = log {} more := by
  intro d l
  have hleads : Leads {} l d := leads_log {} operations
  have hreflects : Reflects l d := Reflects.new.leads hleads
  have hopen : d.isOpen = true ↔ IsOpen l := hreflects.isOpen_iff
  have hclosed : d.isOpen = false ↔ ¬ IsOpen l := by rw [← hopen, Bool.not_eq_true]
  refine ⟨hreflects.name, fun o ho ↦ (entry_of_isRequest d ho).trans hclosed, fun o ↦ ?_,
    fun answer ↦ ?_, ?_, fun o ↦ allocator_of_failed, fun e answer ↦ ?_, rfl, fun more ↦ ?_⟩
  · obtain ⟨hrefused, hanswered⟩ := entry_openMaster d o
    exact ⟨hrefused.trans hopen, fun h ↦ (hanswered h).2⟩
  · obtain ⟨hrefused, hanswered⟩ := entry_openSlave d answer
    refine ⟨hrefused.trans ?_, fun h ↦ (hanswered h).2⟩
    rw [hclosed]
    by_cases hnow : d.isOpen = true
    · rw [hreflects.note hnow]
    · have hshut : ¬ IsOpen l := mt hopen.2 hnow
      exact iff_of_true (.inl hshut) (.inl hshut)
  · intro before between after hl hnone
    rw [hl] at hleads
    obtain ⟨middle, -, hrest⟩ := hleads.exists_of_append
    obtain ⟨last, hbetween, -⟩ := hrest.exists_of_append
    refine Nat.le_trans (hbetween.countP_hands_le hnone) ?_
    split <;> decide
  · have hfails : (d.perform (.openSlave (.error e))).verdict.toBool = false := by
      show (((d.device.openSlave (.error e)).map fun _ ↦ ()).toBool) = false
      rcases d.device with _ | ⟨slave, _ | _⟩ <;> rfl
    rw [allocator_of_failed hfails]
  · have hnew : (d.perform .close).allocator.device = ({} : Allocator).device := rfl
    exact log_congr hnew more

end Allocator

end PtyHost.Pty

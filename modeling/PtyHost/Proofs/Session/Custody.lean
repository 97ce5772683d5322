import PtyHost.Proofs.Session.Passage

/-!
# Terminals taken and given back

A session opens a terminal, has its slave granted, and gives both back when the program has ended or
could not be started, or when the session itself is let go of. What it does with one terminal from
opening to close is a tenure.

Main statements: `Custody` is what a session keeps about its terminal, and `custody_run` that it
does so throughout a course. It follows that the tenures of a session come one after the other, each
of them complete when the session has ended or is let go of.
-/

namespace PtyHost

/-- Whether an effect takes or gives back a terminal. -/
def Effect.isDealing : Effect → Bool
  | .openedMaster | .closedMaster | .requested .. => true
  | _ => false

/-- What minor effects do has nothing to do with taking and giving back. -/
theorem Effect.isDealing_of_isMinor {e : Effect} (h : e.isMinor = true) : e.isDealing = false := by
  cases e <;> simp_all [isMinor, isCall, isDealing]

namespace Session

/-- What is done in a trace to take and to give back terminals. -/
def dealings (trace : List Effect) : List Effect := trace.filter Effect.isDealing

/-- What is done to take a terminal. -/
def taking : List Effect := [.openedMaster, .requested .grant true]

/-- What is done to give a terminal back, with the answer to the request to revoke the grant. -/
def returning (revoked : Bool) : List Effect := [.requested .revoke revoked, .closedMaster]

/-- All that is done with one terminal: it is closed when it was not granted, and else it is given
back once, whatever the answer to the request to revoke the grant. -/
inductive Tenure : List Effect → Prop
  | refused : Tenure [.openedMaster, .requested .grant false, .closedMaster]
  | held (revoked : Bool) : Tenure (taking ++ returning revoked)

/-- Tenures, one after the other. -/
inductive Tenures : List Effect → Prop
  | none : Tenures []
  | next {earlier last : List Effect} (before : Tenures earlier) (tenure : Tenure last) :
      Tenures (earlier ++ last)

/-- Whether the terminals that a trace deals with are all given back. -/
def Settled (trace : List Effect) : Prop := Tenures (dealings trace)

@[simp] theorem dealings_nil : dealings [] = [] := rfl

@[simp] theorem dealings_append (first rest : List Effect) :
    dealings (first ++ rest) = dealings first ++ dealings rest :=
  List.filter_append first rest

@[simp] theorem dealings_cons (e : Effect) (trace : List Effect) :
    dealings (e :: trace) = (if e.isDealing then [e] else []) ++ dealings trace := by
  by_cases h : e.isDealing = true
  · simp [dealings, h]
  · simp [dealings, h]

/-- There are no dealings among minor effects. -/
theorem dealings_eq_nil {trace : List Effect} (h : ∀ e ∈ trace, e.isMinor = true) :
    dealings trace = [] := by
  refine List.filter_eq_nil_iff.2 ?_
  intro e he
  rw [Effect.isDealing_of_isMinor (h e he)]
  exact Bool.false_ne_true

/-- Preparing a terminal for a program neither takes nor gives it back. -/
theorem dealings_preparations {size : WindowSize} {line : Pty.LineSettings} {done : List Effect}
    (h : done <+: preparations size line) : dealings done = [] := by
  refine List.filter_eq_nil_iff.2 ?_
  intro e he
  have hmem := h.subset he
  simp only [preparations, List.mem_cons, List.not_mem_nil, or_false] at hmem
  rcases hmem with rfl | rfl | rfl <;> simp [Effect.isDealing]

variable {ε : Type}

/-- Giving back the terminal of a session that holds one. -/
theorem trace_release {s : Session ε} (hdevice : s.device.isOpen = true)
    (hgranted : s.granted = true) (a : Answers) :
    (s.release a).trace = returning a.revoke.toBool := by
  simp [release, hdevice, hgranted, returning]

/-- There is nothing to give back without a terminal. -/
theorem trace_release_of_closed {s : Session ε} (hdevice : s.device.isOpen = false) (a : Answers) :
    (s.release a).trace = [] := by
  simp [release, hdevice]

/-- What a farewell says has nothing to do with terminals. -/
theorem dealings_farewell (s : Session ε) (status : ExitStatus) :
    dealings (s.farewell status) = [] := by
  unfold farewell
  split <;> simp [Effect.isDealing]

/-- What a session keeps about its terminal: it has one, and it is granted, while a program is
running, and all that it has had before have been given back. -/
structure Custody (c : Course ε) : Prop where
  device : c.session.device.isOpen = c.session.isRunning
  granted : c.session.granted = c.session.isRunning
  dealings : ∃ earlier, Tenures earlier ∧
    dealings c.trace = earlier ++ if c.session.isRunning then taking else []

namespace Custody

variable {c : Course ε} {m : Move}

/-- A session that has done nothing has no terminal. -/
theorem start (id : SessionId) (options : SessionOptions) (e : ε) :
    Custody (Course.start (.new id options e)) where
  device := rfl
  granted := rfl
  dealings := ⟨[], .none, rfl⟩

/-- A move without dealings that leaves the terminal to a program that was or is running. -/
theorem still {next : Advance ε} (hc : Custody c)
    (hdevice : next.session.device = c.session.device)
    (hgranted : next.session.granted = c.session.granted)
    (hrunning : next.session.isRunning = c.session.isRunning)
    (htrace : Session.dealings next.trace = []) : Custody (c.after m next) where
  device := by
    show next.session.device.isOpen = next.session.isRunning
    rw [hdevice, hrunning]
    exact hc.device
  granted := by
    show next.session.granted = next.session.isRunning
    rw [hgranted, hrunning]
    exact hc.granted
  dealings := by
    obtain ⟨earlier, htenures, hdealings⟩ := hc.dealings
    refine ⟨earlier, htenures, ?_⟩
    show Session.dealings (c.trace ++ next.trace) = _ ++ if next.session.isRunning then _ else _
    rw [dealings_append, htrace, List.append_nil, hrunning]
    exact hdealings

/-- A move at the end of which there is no terminal. -/
theorem returned {next : Advance ε} (hdevice : next.session.device = .closed)
    (hgranted : next.session.granted = false) (hrunning : next.session.isRunning = false)
    (htrace : Tenures (Session.dealings c.trace ++ Session.dealings next.trace)) :
    Custody (c.after m next) where
  device := by
    show next.session.device.isOpen = next.session.isRunning
    rw [hdevice, hrunning]
    rfl
  granted := hgranted.trans hrunning.symm
  dealings := by
    refine ⟨_, htrace, ?_⟩
    show Session.dealings (c.trace ++ next.trace) = _ ++ if next.session.isRunning then _ else _
    rw [dealings_append, hrunning]
    simp

/-- A session without a running program has no terminal, and has given back all it has had. -/
theorem free (hc : Custody c) (h : c.session.isRunning = false) :
    c.session.device = .closed ∧ c.session.granted = false ∧ Settled c.trace := by
  obtain ⟨hdevice, hgranted, earlier, htenures, hdealings⟩ := hc
  rw [h] at hdevice hgranted hdealings
  refine ⟨?_, hgranted, ?_⟩
  · cases hd : c.session.device with
    | closed => rfl
    | opened slave taken =>
      rw [hd] at hdevice
      cases hdevice
  · unfold Settled
    rw [hdealings]
    simpa using htenures

/-- Giving back the terminal of a running program completes its tenure. -/
theorem tenures_returning (hc : Custody c) (h : c.session.isRunning = true) (revoked : Bool) :
    Tenures (Session.dealings c.trace ++ returning revoked) := by
  obtain ⟨-, -, earlier, htenures, hdealings⟩ := hc
  rw [hdealings, h, if_pos rfl, List.append_assoc]
  exact .next htenures (.held revoked)

/-- A failed attempt to start a program leaves no terminal behind. -/
theorem refused (hc : Custody c) {program : String} {a : Answers} {e : SessionError}
    (idle : c.session.phase = .idle) (failure : (c.session.startup program a).result = .error e) :
    Custody (c.after m (reaching
      ((⟨c.session.opened (c.session.startup program a),
        (c.session.startup program a).trace⟩ : Traced ε).andThen (·.release a))
      (.ended (.failed e)))) := by
  have hrunning : c.session.isRunning = false := isRunning_of_idle idle
  obtain ⟨hdevice, hgranted, hsettled⟩ := hc.free hrunning
  have hended := ended_startup program a hdevice hgranted
  refine returned rfl rfl hrunning ?_
  show Tenures (Session.dealings c.trace ++ Session.dealings ((c.session.startup program a).trace ++
    ((c.session.opened (c.session.startup program a)).release a).trace))
  revert hended failure
  generalize c.session.startup program a = u
  intro failure hended
  cases hended with
  | unopened =>
    rw [trace_release_of_closed rfl, List.append_nil, dealings_nil, List.append_nil]
    exact hsettled
  | refused slave =>
    have hrelease : ((c.session.opened
        ⟨.opened slave false, false, [.openedMaster, .requested .grant false],
          .error e⟩).release a).trace = [.closedMaster] := by
      simp [release, opened, Pty.Device.isOpen]
    cases failure
    rw [hrelease]
    exact .next hsettled .refused
  | unprepared slave taken _ hdone =>
    rw [trace_release rfl rfl, dealings_append, dealings_cons, dealings_cons,
      dealings_preparations hdone]
    exact .next hsettled (.held a.revoke.toBool)
  | spawned => cases failure

/-- A program that was started holds the terminal. -/
theorem started (hc : Custody c) {program : String} {a : Answers} {pid : Pid}
    {silenceAt : Option Nat} (idle : c.session.phase = .idle)
    (success : (c.session.startup program a).result = .ok pid) :
    Custody (c.after m (reaching
      ((⟨{ c.session.opened (c.session.startup program a) with notified := false },
        (c.session.startup program a).trace⟩ : Traced ε).andThen
          (·.started program pid silenceAt a))
      (.ended (.done 0)))) := by
  have hrunning : c.session.isRunning = false := isRunning_of_idle idle
  obtain ⟨hdevice, hgranted, hsettled⟩ := hc.free hrunning
  obtain ⟨slave, hstartup⟩ := startup_of_result_eq_ok hdevice hgranted success
  rw [hstartup]
  refine ⟨rfl, rfl, Session.dealings c.trace, hsettled, ?_⟩
  have hmessages (s : Session ε) :
      Session.dealings (s.started program pid silenceAt a).trace = [] := by
    show Session.dealings (if _ then _ else _) = []
    split
    · rfl
    · rfl
  show Session.dealings (c.trace ++ (_ :: _ :: (_ ++ [.spawned pid]) ++
    (Session.started _ program pid silenceAt a).trace)) = Session.dealings c.trace ++ taking
  rw [dealings_append, dealings_append, hmessages, List.append_nil]
  rfl

/-- The end of a session gives the terminal of its program back. -/
theorem completed (hc : Custody c) {r s : Running} {p : Progress}
    (running : c.session.phase = .running r) (status : ExitStatus) (a : Answers) :
    Custody (c.after m
      (reaching ({ c.session with phase := .running s }.complete status a) p)) := by
  have hrunning : c.session.isRunning = true := isRunning_of_running running
  obtain ⟨titles, hsession⟩ :=
    session_complete { c.session with phase := .running s } status a
  have hdevice : c.session.device.isOpen = true := hc.device.trans hrunning
  have hgranted : c.session.granted = true := hc.granted.trans hrunning
  refine returned ?_ ?_ ?_ ?_
  · exact congrArg Session.device hsession
  · exact congrArg Session.granted hsession
  · exact congrArg Session.isRunning hsession
  · show Tenures (_ ++ Session.dealings (Session.complete _ status a).trace)
    rw [trace_complete, dealings_append, dealings_farewell, List.append_nil,
      trace_release (s := { c.session with phase := .running s }) hdevice hgranted]
    exact hc.tenures_returning hrunning a.revoke.toBool

/-- A passage that stays in time keeps the custody of the terminal. -/
theorem passage [Emulation ε] {next : Advance ε} (h : Passage c m next)
    (hin : next.progress ≠ .ended .overflow) (hc : Custody c) : Custody (c.after m next) := by
  cases h with
  | edits _ _ edits _ =>
    have halike := edits.alike
    exact hc.still halike.device halike.granted halike.isRunning (dealings_eq_nil edits.isMinor)
  | output _ before after trace _ _ =>
    have halike := before.alike.through after.alike
    refine hc.still halike.device halike.granted halike.isRunning ?_
    rw [trace, dealings_append, dealings_cons, dealings_eq_nil before.isMinor,
      dealings_eq_nil after.isMinor]
    rfl
  | lost => exact absurd rfl hin
  | closed running => exact hc.still rfl rfl (isRunning_of_running running).symm rfl
  | refused idle _ failure => exact hc.refused idle failure
  | aborted => exact absurd rfl hin
  | started silenceAt idle _ success => exact hc.started idle success
  | reaped _ running _ => exact hc.still rfl rfl (isRunning_of_running running).symm rfl
  | ended a running _ _ => exact hc.completed running _ a
  | drained a running _ _ _ => exact hc.completed running _ a

end Custody

/-- A session keeps the custody of its terminal throughout a course. -/
theorem custody_run [Emulation ε] (id : SessionId) (options : SessionOptions) (e : ε)
    {moves : List Move} (h : (Course.start (.new id options e)).staysInTime moves = true) :
    Custody ((Course.start (.new id options e)).run moves) :=
  Course.kept_run (fun _ _ _ hpassage hin hc ↦ hc.passage hpassage hin) Phase.wellFormed_idle
    (.start id options e) h

/-- Killing the program of a session that is let go of has nothing to do with its terminal. -/
theorem dealings_drop (s : Session ε) (a : Answers) :
    dealings (s.drop a) = dealings (s.release a).trace := by
  unfold drop
  rw [dealings_append]
  split <;> simp [Effect.isDealing]

/-- The tenures of a session follow one another, each complete, with at most one that is still
going on, which is that of the running program. A tenure that was granted ends with one request to
revoke the grant and with the close of the terminal, whatever the answer to the request. When the
session has ended, or when it is let go of at whatever point, no tenure is left. -/
theorem terminals_settled [Emulation ε] (id : SessionId) (options : SessionOptions) (e : ε)
    (moves : List Move) (h : (Course.start (.new id options e)).staysInTime moves = true) :
    let c := (Course.start (.new id options e)).run moves
    (∃ earlier, Tenures earlier ∧
      dealings c.trace = earlier ++ if c.session.isRunning then taking else []) ∧
    (c.session.isTerminated = true → Settled c.trace) ∧
    ∀ a, Settled (c.trace ++ c.session.drop a) := by
  intro c
  have hc : Custody c := custody_run id options e h
  refine ⟨hc.dealings, ?_, ?_⟩
  · intro hterminated
    exact (hc.free (isRunning_of_isTerminated hterminated)).2.2
  · intro a
    unfold Settled
    rw [dealings_append, dealings_drop]
    cases hrunning : c.session.isRunning with
    | false =>
      obtain ⟨hdevice, -, hsettled⟩ := hc.free hrunning
      rw [trace_release_of_closed (by rw [hdevice]; rfl), dealings_nil, List.append_nil]
      exact hsettled
    | true =>
      rw [trace_release (hc.device.trans hrunning) (hc.granted.trans hrunning)]
      exact hc.tenures_returning hrunning a.revoke.toBool

/-- A refused attempt and one that is killed, with a grant that the helper fails to revoke. -/
theorem terminals_settled_killed :
    let moves : List Move :=
      [.run "sh" { grant := .error .notRunning }, .run "sh" {}, .kill {},
        .happen (.exited (.signaled 9 false)) {},
        .happen .endOfOutput { revoke := .error .notRunning }]
    let c := (Course.start (.new 1 {} Emulation.Discard.mk)).run moves
    (Course.start (.new 1 {} Emulation.Discard.mk)).staysInTime moves = true ∧
      c.session.isTerminated = true ∧ Settled c.trace := by
  intro moves c
  have hin : (Course.start (.new 1 {} Emulation.Discard.mk)).staysInTime moves = true := by decide
  have hterminated : c.session.isTerminated = true := by decide
  exact ⟨hin, hterminated, (terminals_settled 1 {} Emulation.Discard.mk moves hin).2.1 hterminated⟩

end Session

end PtyHost

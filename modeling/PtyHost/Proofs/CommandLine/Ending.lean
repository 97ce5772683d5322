import PtyHost.Proofs.CommandLine.Crossing
import PtyHost.Proofs.Session.Display

/-!
# How the program comes to its end

The program ends with its session. As long as the terminal reports no failure and the clock can show
the end of a silence countdown, the bridge goes on until the session has finished, in whatever order
things happen, and the number that the program exits with is the one by which a shell reports the
end of the session's program.

Main statement: `crossing_ends`.
-/

namespace PtyHost

/-- Whether a wait status tells of an end: the programs that are only stopped or continued have a
mark of their own. -/
def ExitStatus.isEnd (raw : Int) : Bool := raw % 128 ≠ 127

namespace CommandLine

open Session (Course Move Advance Wait Goal)

/-- A program exits with the number by which a shell reports the end of its session's program, and
with 0 exactly if that one exited with 0. -/
theorem exitCode_ofWaitStatus {raw : Int} (h : ExitStatus.isEnd raw = true) :
    (exitCode (some (.ofWaitStatus raw)) : Int) = (ExitStatus.ofWaitStatus raw).code ∧
      (exitCode (some (.ofWaitStatus raw)) = 0 ↔ ExitStatus.ofWaitStatus raw = .exited 0) := by
  have hlow : (raw % (Nat.pow 2 32 : Int)).toNat % 128 ≠ 127 := by
    have hraw : raw % 128 ≠ 127 := of_decide_eq_true h
    rw [show (Nat.pow 2 32 : Int) = 4294967296 from rfl]
    omega
  unfold ExitStatus.ofWaitStatus
  generalize (raw % (Nat.pow 2 32 : Int)).toNat = word at hlow
  have hexit {n : Nat} (hn : n ≤ 255) (status : ExitStatus) (hcode : status.code = Int.ofNat n) :
      exitCode (some status) = n := by
    rw [exitCode, Option.map_some, hcode]
    exact if_pos hn
  dsimp only
  split
  · have hcode := hexit (n := word / 256 % 256) (by omega) (.exited (word / 256 % 256 : Nat)) rfl
    rw [hcode]
    refine ⟨rfl, ?_⟩
    rw [ExitStatus.exited.injEq]
    omega
  · have hcode := hexit (n := 128 + word % 128) (by omega)
      (.signaled (word % 128 : Nat) (word / 128 % 2 = 1)) rfl
    rw [hcode]
    refine ⟨rfl, ?_⟩
    simp

/-- The failure of the terminal or of the program that an occurrence reports. A terminal that was
hung up is none. -/
def fault? : Occurrence × Answers → Option OsError
  | (.woke (.readFailed cause), _) | (.woke (.writeFailed cause), _)
  | (.woke (.waitFailed cause), _) => some cause
  | (.windowChanged (some _), a) =>
    match a.setWindowSize with
    | .error cause => some cause
    | .ok () => none
  | _ => none

/-- The block of output that is heard and dispatched; the rest of the output, once the program has
ended, is collected. -/
def Bridge.dispatched? {ε : Type} (b : Bridge ε) (o : Occurrence) (a : Answers) : Option Bytes :=
  match b.activity.wait, b.heard? o a with
  | .dispatching _, some (.output block) => some block
  | _, _ => none

variable {ε : Type} [Emulation ε]

/-- An operation that drives a running session fails only because of a failure that is reported. -/
theorem fault?_of_resume {s : Session ε} {w : Wait} {wake : Session.Wake} {a : Answers}
    {e : SessionError} (hcurrent : s.current?.isSome = true)
    (h : (s.resume w wake a).progress = .ended (.failed e)) :
    ∃ cause, fault? (.woke wake, a) = some cause ∧ e = .device cause := by
  obtain ⟨r, hr⟩ := Option.isSome_iff_exists.1 hcurrent
  have hafter (g : Goal) {v : Verdict Nat} (hv : v ≠ .failed e) :
      g.after v ≠ .ended (.failed e) := by
    cases g <;> cases v <;> simp_all [Goal.after]
  unfold Session.resume at h
  rw [hr] at h
  dsimp only at h
  split at h
  · cases w with
    | dispatching g =>
      cases wake with
      | readFailed cause | writeFailed cause | waitFailed cause =>
        cases h
        exact ⟨cause, rfl, rfl⟩
      | output block =>
        refine absurd h (hafter g ?_)
        have hnoting := Session.noting s block a.now
        revert hnoting
        generalize s.noteOutput block a.now = o
        intro hnoting
        cases hnoting <;> simp [Traced.ending]
      | endOfOutput | accepted | inputClosed | silence => exact absurd h (hafter g (by simp))
      | exited status =>
        change (s.reap r status a).progress = _ at h
        unfold Session.reap at h
        dsimp only at h
        split at h <;> cases h
      | graceOver | drainOver => cases h
    | draining status deadline =>
      change (s.drain r status deadline wake a).progress = _ at h
      unfold Session.drain at h
      split at h <;> cases h
  · cases h

namespace Bridge

omit [Emulation ε] in
/-- The input of a running program is queued. -/
theorem verdict_send {s : Session ε} (hcurrent : s.current?.isSome = true) (data : Bytes) :
    (s.send data).verdict = .done () := by
  obtain ⟨r, hr⟩ := Option.isSome_iff_exists.1 hcurrent
  rw [Session.send, hr]
  rfl

/-- A terminal that is open takes a window size unless it reports a failure. -/
theorem verdict_resize {s : Session ε} (hcurrent : s.current?.isSome = true)
    (hopen : s.device.isOpen = true) (size : WindowSize) (a : Answers) :
    (s.resize size a).verdict =
      match a.setWindowSize with
      | .ok () => .done ()
      | .error cause => .failed (.device cause) := by
  rw [Session.resize_of_isOpen hcurrent hopen]
  cases a.setWindowSize <;> rfl

omit [Emulation ε] in
/-- A running program is asked to end by an operation that waits. -/
theorem progress_terminate {s : Session ε} (hcurrent : s.current?.isSome = true) (a : Answers) :
    ∃ w, (s.terminate a).progress = .waiting w := by
  obtain ⟨r, hr⟩ := Option.isSome_iff_exists.1 hcurrent
  have hstate : s.phase.state = .running := of_decide_eq_true (Session.isRunning_of_current? hr)
  unfold Session.terminate Session.stop Session.await
  rw [hstate, hr]
  exact ⟨_, rfl⟩

/-- How a bridge can stand after a turn: it goes on, it ends with the number for the status of its
session, which has ended, it fails because of a failure that is reported, or the operation that goes
on asks for a point in time that the clock cannot show. -/
inductive Result (b : Bridge ε) (o : Occurrence) (a : Answers) : Standing ε → Prop
  | crossing (next : Bridge ε) : Result b o a (.crossing next)
  | ended (s : Session ε) (ended : s.isRunning = false) :
      Result b o a (.ended s (exitCode s.exitStatus?))
  | failed (s : Session ε) {cause : OsError} (fault : fault? (o, a) = some cause) :
      Result b o a (.failed s (.device cause))
  | overflow (s : Session ε) {wake : Session.Wake} (woke : o = .woke wake)
      (beyond : (b.session.resume b.activity.wait wake a).progress = .ended .overflow) :
      Result b o a (.overflow s)

variable {b : Bridge ε} {o : Occurrence} {a : Answers}

namespace Result

/-- A bridge begins its next step, or its session has ended. -/
theorem settle (next : Bridge ε) : Result b o a next.settle := by
  rcases next.settle_eq with ⟨w, hcrossing⟩ | ⟨hended, hsettle⟩
  · rw [hcrossing]
    exact .crossing _
  · rw [hsettle]
    exact .ended next.session hended

/-- A bridge goes on after an operation, unless a failure is reported. -/
theorem afterwards {next : Bridge ε} {out : Outcome ε Unit}
    (hverdict : out.verdict = .done () ∨
      ∃ cause, fault? (o, a) = some cause ∧ out.verdict = .failed (.device cause)) :
    Result b o a (next.afterwards out).1 := by
  rw [afterwards_eq]
  rcases hverdict with hdone | ⟨cause, hfault, hfailed⟩
  · rw [hdone]
    exact settle _
  · rw [hfailed]
    exact .failed out.session hfault

/-- A bridge goes on with an operation that waits, unless a failure is reported or the operation
asks for a point in time that the clock cannot show. -/
theorem advance {next : Bridge ε} {again : Wait → Activity} {step : Advance ε}
    (hfailed : ∀ e, step.progress = .ended (.failed e) →
      ∃ cause, fault? (o, a) = some cause ∧ e = .device cause)
    (hoverflow : step.progress = .ended .overflow → ∃ wake, o = .woke wake ∧
      (b.session.resume b.activity.wait wake a).progress = .ended .overflow) :
    Result b o a (next.advance again step).1 := by
  rw [advance_eq]
  split
  · exact .crossing _
  · exact settle _
  · next e hprogress =>
    obtain ⟨cause, hfault, rfl⟩ := hfailed e hprogress
    exact .failed step.session hfault
  · next hprogress =>
    obtain ⟨wake, hwoke, hbeyond⟩ := hoverflow hprogress
    exact .overflow step.session hwoke hbeyond

end Result

/-- How a bridge stands after a turn in which its program was running and its terminal was open. -/
theorem result (hcurrent : b.session.current?.isSome = true)
    (hopen : b.session.device.isOpen = true) (o : Occurrence) (a : Answers) :
    Result b o a (b.step o a).1 := by
  have hturn := b.turn o a
  revert hturn
  generalize b.step o a = next
  intro hturn
  cases hturn with
  | ignored => exact .crossing b
  | driven again _ wake =>
    exact .advance (fun e he ↦ fault?_of_resume hcurrent he) fun hbeyond ↦ ⟨wake, rfl, hbeyond⟩
  | sent data => exact .afterwards (.inl (verdict_send hcurrent data))
  | followed size =>
    refine .afterwards ?_
    rw [verdict_resize hcurrent hopen, fault?]
    cases a.setWindowSize with
    | ok => exact .inl rfl
    | error cause => exact .inr ⟨cause, rfl, rfl⟩
  | stopped =>
    obtain ⟨w, hw⟩ := progress_terminate hcurrent a
    exact .advance (by simp [hw]) (by simp [hw])
  | granted | passed => exact .settle _

/-- A bridge asks for a point in time that the clock cannot show exactly if the operation does that
goes on. -/
theorem overflow_iff (hcurrent : b.session.current?.isSome = true)
    (hopen : b.session.device.isOpen = true) :
    (∃ s, (b.step o a).1 = .overflow s) ↔
      ∃ wake, o = .woke wake ∧
        (b.session.resume b.activity.wait wake a).progress = .ended .overflow := by
  constructor
  · rintro ⟨s, hs⟩
    have hresult := result hcurrent hopen o a
    rw [hs] at hresult
    cases hresult with
    | overflow _ woke beyond => exact ⟨_, woke, beyond⟩
  · rintro ⟨wake, rfl, hbeyond⟩
    have hturn := b.turn (.woke wake) a
    revert hturn
    generalize b.step (.woke wake) a = next
    intro hturn
    cases hturn with
    | driven =>
      rw [advance_eq, hbeyond]
      exact ⟨_, rfl⟩
    | ignored deaf | passed deaf => exact absurd rfl (deaf wake)

end Bridge

section

variable {x : Crossing ε} {c : Course ε} {b : Bridge ε}

omit [Emulation ε] in
/-- The block of output that a bridge dispatches is the one that the course does. -/
theorem Mirrors.dispatched? (h : Mirrors x c) (hb : x.standing = .crossing b)
    (wake : Session.Wake) (a : Answers) :
    c.dispatched? (.happen wake a) = b.dispatched? (.woke wake) a := by
  ext block
  rw [Course.dispatched?_eq_some_iff, h.heard? hb, Course.isDraining, (h.crossing b hb).2,
    Bridge.dispatched?]
  cases b.activity.wait with
  | dispatching =>
    cases b.heard? (.woke wake) a with
    | none => simp
    | some heard => cases heard <;> simp
  | draining => simp

/-- A bridge asks for a point in time that the clock cannot show exactly if it dispatches a block of
output, the output is monitored, and the clock cannot show the end of the countdown. -/
theorem Mirrors.overflow_iff {id : SessionId} {options : SessionOptions} (h : Mirrors x c)
    (hc : Underway id options c) (hb : x.standing = .crossing b) (o : Occurrence) (a : Answers) :
    (∃ t, (b.step o a).1 = .overflow t) ↔
      (∃ block, b.dispatched? o a = some block) ∧
        (options.monitorActivity || options.monitorSilence) = true ∧
        Clock.latest < a.now + options.silenceTimeout := by
  obtain ⟨hcurrent, hopen⟩ := OnCourse.held ⟨c, h, hc⟩ hb
  rw [Bridge.overflow_iff hcurrent hopen]
  cases o with
  | woke wake =>
    have hmoves : (∃ wake', Occurrence.woke wake = .woke wake' ∧
        (b.session.resume b.activity.wait wake' a).progress = .ended .overflow) ↔
        c.overflows (.happen wake a) = true := by
      rw [Course.overflows, decide_eq_true_eq, h.advance hb]
      simp
    have hmonitors : c.session.monitorsOutput =
        (options.monitorActivity || options.monitorSilence) := by
      rw [Session.monitorsOutput, hc.options]
    rw [hmoves, Course.overflows_of_keepsSpan hc.resumable.wellFormed rfl, Course.arms?,
      h.dispatched? hb, hmonitors, hc.options, ← Option.isSome_iff_exists]
    split
    · next hboth => simp [hboth]
    · next hneither =>
      refine iff_of_false (by simp) ?_
      rintro ⟨hdispatched, hmonitored, -⟩
      exact hneither ⟨hdispatched, hmonitored⟩
  | _ => simp [Bridge.dispatched?, Bridge.heard?]

end

section

variable {id : SessionId} {options : SessionOptions} {e : ε} {program : String} {a : Answers}

/-- A bridge that goes on no more has come to that in a turn. -/
theorem last_turn (h : ((Session.new id options e).run program a).verdict = .done ())
    {followsWindow : Bool} {events : List (Occurrence × Answers)} {standing : Standing ε}
    (hstanding : ((Crossing.start (.new id options e) program a followsWindow).run
      events).standing = standing)
    (hstopped : ∀ b, standing ≠ .crossing b) :
    ∃ b, ∃ event ∈ events, Bridge.Result b event.1 event.2 standing := by
  obtain ⟨first, hfirst⟩ : ∃ b, (Crossing.start (.new id options e) program a
      followsWindow).standing = .crossing b := by
    rw [Crossing.start, h]
    exact ⟨_, rfl⟩
  obtain ⟨before, o, answers, b, hmem, hb, hrun⟩ :=
    Crossing.stopped_in hfirst (hstanding.symm ▸ hstopped)
  obtain ⟨hcurrent, hopen⟩ := ((OnCourse.start h followsWindow).run before).held hb
  refine ⟨b, (o, answers), hmem, ?_⟩
  rw [← hstanding, hrun, Crossing.step_of_crossing hb]
  exact b.result hcurrent hopen o answers

end

/-- How the program comes to its end, whatever happens in whatever order after the program of its
session was started. The bridge goes on only while that one is running. When it ends, the session
has ended with the status that was first reported, and the number that the program exits with is the
one by which a shell reports that status, which is 0 exactly if the program of the session exited
with 0. It fails only with a failure that the terminal or the operating system has reported. And it
is given up because of the clock exactly in a turn that dispatches a block of output which is
monitored, if the silence countdown would end beyond the clock. -/
theorem crossing_ends (id : SessionId) (options : SessionOptions) (e : ε) (program : String)
    (a : Answers) (followsWindow : Bool)
    (hstarted : ((Session.new id options e).run program a).verdict = .done ())
    (events : List (Occurrence × Answers)) :
    let x := (Crossing.start (.new id options e) program a followsWindow).run events
    (∀ b, x.standing = .crossing b → b.session.isRunning = true ∧
      ∀ o a, (∃ s, (b.step o a).1 = .overflow s) ↔
        (∃ block, b.dispatched? o a = some block) ∧
          (options.monitorActivity || options.monitorSilence) = true ∧
          Clock.latest < a.now + options.silenceTimeout) ∧
    (∀ s code, x.standing = .ended s code → ∃ status, s.phase = .terminated status ∧
      x.exits.head? = some status ∧ code = exitCode (some status) ∧
      ∀ raw, ExitStatus.isEnd raw = true → status = .ofWaitStatus raw →
        (code : Int) = status.code ∧ (code = 0 ↔ status = .exited 0)) ∧
    ∀ s error, x.standing = .failed s error → ∃ cause, error = .device cause ∧
      ∃ event ∈ events, fault? event = some cause := by
  intro x
  obtain ⟨c, hmirrors, hunderway⟩ := (OnCourse.start hstarted followsWindow).run events
  refine ⟨?_, ?_, ?_⟩
  · intro b hb
    exact ⟨(hmirrors.crossing b hb).1, hmirrors.overflow_iff hunderway hb⟩
  · intro s code hstanding
    obtain ⟨b, event, -, hresult⟩ := last_turn hstarted hstanding (by simp)
    have hended : s.isRunning = false ∧ code = exitCode s.exitStatus? := by
      cases hresult with
      | ended _ ended => exact ⟨ended, rfl⟩
    obtain ⟨hended, hcode⟩ := hended
    -- the course has kept the status that was first reported, and it is that of the session
    have hsession : s = c.session := by
      rw [← hmirrors.session, Crossing.session, hstanding]
      rfl
    have hterminated : s.isTerminated = true := by
      rw [hsession] at hended ⊢
      exact hunderway.begun.resolve_left (Bool.eq_false_iff.1 hended)
    have hw : s.phase.WellFormed := hsession ▸ hunderway.resumable.wellFormed
    obtain ⟨status, hphase⟩ := (Session.isTerminated_iff hw).1 hterminated
    rw [(Session.exitStatus?_eq_some_iff hw).2 hphase] at hcode
    refine ⟨status, hphase, ?_, hcode, ?_⟩
    · rw [hmirrors.exits]
      exact hunderway.resumable.head?_exits (hsession ▸ hphase)
    · rintro raw hraw rfl
      rw [hcode]
      exact exitCode_ofWaitStatus hraw
  · intro s error hstanding
    obtain ⟨b, event, hmem, hresult⟩ := last_turn hstarted hstanding (by simp)
    cases hresult with
    | failed _ fault => exact ⟨_, rfl, event, hmem, fault⟩

/-- A program is started whose silence takes as long as a file can give. If all its output comes in
the first second, the bridge ends with the code of the program; a block that comes later is too late
for the clock. -/
theorem crossing_ends_or_given_up :
    let options : SessionOptions :=
      { monitorActivity := true, silenceTimeout := 9223372036854775807 * 1000 }
    let start := Crossing.start (.new 1 options Emulation.Discard.mk) "sh" {} true
    let x := start.run [(.woke (.output [104]), { now := 999 }),
      (.woke (.exited (.ofWaitStatus 768)), {}), (.woke .endOfOutput, {})]
    (x.standing = .ended x.session 3 ∧
      ∃ status, x.session.phase = .terminated status ∧ status.code = 3) ∧
    ∃ b s, start.standing = .crossing b ∧
      (b.step (.woke (.output [104])) { now := 1000 }).1 = .overflow s := by
  intro options start x
  have hstarted : ((Session.new 1 options Emulation.Discard.mk).run "sh" {}).verdict = .done () :=
    by decide
  have hended : x.standing = .ended x.session 3 := by decide
  have hexits : x.exits.head? = some (.ofWaitStatus 768) := by decide
  have hlaw := crossing_ends 1 options Emulation.Discard.mk "sh" {} true hstarted
  constructor
  · obtain ⟨status, hphase, hstatus, -, hcode⟩ := (hlaw _).2.1 x.session 3 hended
    refine ⟨hended, status, hphase, ?_⟩
    exact ((hcode 768 (by decide) (Option.some.inj (hstatus.symm.trans hexits))).1).symm
  · obtain ⟨b, hb⟩ : ∃ b, start.standing = .crossing b := ⟨_, rfl⟩
    obtain ⟨s, hs⟩ := (((hlaw []).1 b hb).2 (.woke (.output [104])) { now := 1000 }).2 (by
      cases hb
      exact ⟨⟨_, rfl⟩, rfl, by decide⟩)
    exact ⟨b, s, hb, hs⟩

end CommandLine

end PtyHost

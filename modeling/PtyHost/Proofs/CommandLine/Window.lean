import PtyHost.CommandLine.Setup
import PtyHost.Proofs.CommandLine.Crossing
import PtyHost.Proofs.Emulation.Blocks
import PtyHost.Proofs.Session.Display
import PtyHost.Proofs.Session.Notices

/-!
# The window size in force

A program is started with the size of a configuration that was checked, so with one that is not
empty. After that the size follows the user's window, when that is not empty, and it is what the
program asks for in its output, whatever that is.

Main statement: `window_in_force`.
-/

namespace PtyHost

namespace Emulation

/-- Blocks of output are read in the same way whatever size a tracker was told. -/
theorem replay_resized (t : TitleTracker) (size : WindowSize) (blocks : List Bytes) :
    replay { t with size } blocks =
      ((replay t blocks).1, { (replay t blocks).2 with size }) := by
  induction blocks generalizing t with
  | nil => rfl
  | cons block blocks ih =>
    have hreceive : takeEvents (Emulation.receive { t with size } block) =
        ((takeEvents (Emulation.receive t block)).1,
          { (takeEvents (Emulation.receive t block)).2 with size }) := by
      show takeEvents (TitleTracker.receive { t with size } block) =
        ((takeEvents (t.receive block)).1, { (takeEvents (t.receive block)).2 with size })
      rw [TitleTracker.receive_eq, TitleTracker.receive_eq]
      rfl
    rw [replay, replay, hreceive, ih]

/-- Another size is all that a tracker has of the sizes that it is told. -/
theorem exists_foldl_resized (t : TitleTracker) (sizes : List WindowSize) :
    ∃ size, sizes.foldl Emulation.resized t = { t with size } := by
  induction sizes generalizing t with
  | nil => exact ⟨t.size, rfl⟩
  | cons size sizes ih => exact ih { t with size }

end Emulation

namespace Session

variable {ε : Type}

/-- What a start does about the window: the terminal is given the size of the session. -/
theorem sized_run {s : Session ε} {program : String} {a : Answers} (hdevice : s.device = .closed)
    (hgranted : s.granted = false) (h : (s.run program a).verdict = .done ()) :
    (s.run program a).session.size = s.size ∧ (s.run program a).session.emulation = s.emulation ∧
      sized (s.run program a).trace = [s.size] ∧ requested (s.run program a).trace = [] ∧
        fed (s.run program a).trace = [] := by
  cases hstate : s.phase.state with
  | running | terminated => simp [Session.run, hstate] at h
  | idle =>
  cases hresult : (s.startup program a).result with
  | error e => simp [Session.run, hstate, hresult, Traced.ending] at h
  | ok pid =>
  obtain ⟨slave, hstartup⟩ := startup_of_result_eq_ok hdevice hgranted hresult
  cases hcountdown : firstSilence? s.options a.now with
  | none => simp [Session.run, hstate, hstartup, hcountdown] at h
  | some silenceAt =>
  have hstarted (t : Session ε) : ∀ e ∈ (t.started program pid silenceAt a).trace,
      e.isPlain = true := by
    unfold started
    dsimp only
    split
    · exact List.forall_mem_singleton.2 rfl
    · simp
  simp only [Session.run, hstate, hstartup, hcountdown, Traced.andThen, Traced.ending]
  obtain ⟨hsized, hrequested, hfed⟩ := plain_trace (hstarted _)
  rw [sized_append, requested_append, fed_append, hsized, hrequested, hfed]
  exact ⟨rfl, rfl, rfl, rfl, rfl⟩

end Session

namespace CommandLine

open Session (Advance Wait Displays requested fed)

variable {ε : Type}

/-- The notifications that have not been seen to. -/
def Standing.notifications : Standing ε → List Notification
  | .crossing b => b.notifications
  | _ => []

/-- The notifications in a trace are those that the owner is told. -/
theorem mem_notificationsIn {trace : List Effect} {n : Notification} :
    n ∈ notificationsIn trace ↔ .notified n ∈ trace := Session.mem_notices

namespace Bridge

/-- A bridge has the same session when it begins its next step. -/
@[simp] theorem session_settle (b : Bridge ε) : b.settle.session = b.session := by
  rcases b.settle_eq with ⟨w, h⟩ | ⟨-, h⟩ <;> rw [h] <;> rfl

/-- A bridge has no more to see to when it begins its next step. -/
theorem mem_notifications_settle {b : Bridge ε} {n : Notification}
    (h : n ∈ b.settle.notifications) : n ∈ b.notifications := by
  rcases b.settle_eq with ⟨w, hsettle⟩ | ⟨-, hsettle⟩
  · rwa [hsettle] at h
  · rw [hsettle] at h
    cases h

/-- A bridge takes a session with what it told. -/
theorem mem_notifications_take {b : Bridge ε} {t : Traced ε} {n : Notification} :
    n ∈ (b.take t).notifications ↔ n ∈ b.notifications ∨ .notified n ∈ t.trace := by
  rw [take, List.mem_append, mem_notificationsIn]

/-- A bridge that goes on with what has come of its session: with that session and what was done,
and there are no notifications left to see to but those that it had and those that it was told. -/
structure Continues (b : Bridge ε) (t : Traced ε) (next : Standing ε × List Effect) : Prop where
  session : next.1.session = t.session
  trace : next.2 = t.trace
  notifications : ∀ n ∈ next.1.notifications, n ∈ b.notifications ∨ .notified n ∈ t.trace

namespace Continues

variable {b : Bridge ε} {t : Traced ε}

/-- A bridge begins its next step with what has come of its session. -/
theorem settle (b : Bridge ε) (t : Traced ε) : Continues b t ((b.take t).settle, t.trace) where
  session := session_settle _
  trace := rfl
  notifications := fun _ hn ↦ mem_notifications_take.1 (mem_notifications_settle hn)

/-- A bridge does not go on. -/
theorem stopped {standing : Standing ε} (hsession : standing.session = t.session)
    (hstopped : standing.notifications = []) : Continues b t (standing, t.trace) where
  session := hsession
  trace := rfl
  notifications := by simp [hstopped]

/-- A bridge goes on after an operation. -/
theorem afterwards (b : Bridge ε) (o : Outcome ε Unit) :
    Continues b o.toTraced (b.afterwards o) := by
  unfold Bridge.afterwards
  cases o.verdict with
  | done => exact settle b o.toTraced
  | failed | overflow => exact stopped rfl rfl

/-- A bridge goes on after an operation that waits. -/
theorem advance (b : Bridge ε) (again : Wait → Activity) (next : Advance ε) :
    Continues b next.toTraced (b.advance again next) := by
  unfold Bridge.advance
  cases next.progress with
  | waiting w => exact ⟨rfl, rfl, fun _ hn ↦ mem_notifications_take.1 hn⟩
  | ended v =>
    cases v with
    | done => exact settle b next.toTraced
    | failed | overflow => exact stopped rfl rfl

end Continues

variable {b : Bridge ε} {size : WindowSize}

/-- A bridge is asked for a window size by the user, or by its program. -/
theorem eq_of_asked? {o : Occurrence} (h : b.asked? o = some size) :
    o = .windowChanged (some size) ∨ ∃ id, .resizeRequested id size ∈ b.notifications := by
  unfold asked? at h
  split at h
  · split at h
    · rw [h]
      exact .inl rfl
    · cases h
  · split at h
    · next id _ rest hnext =>
      cases h
      rw [hnext]
      exact .inr ⟨id, List.mem_cons_self⟩
    · cases h
  · cases h

variable [Emulation ε]

/-- In each turn a bridge goes on with a session that has done about the window what it is asked
for. -/
theorem displays (hcurrent : b.session.current?.isSome = true)
    (hopen : b.session.device.isOpen = true) (o : Occurrence) (a : Answers) :
    ∃ t, Continues b t (b.step o a) ∧
      Displays b.session (b.asked? o) a.setWindowSize.toBool t := by
  have hturn := b.turn o a
  revert hturn
  generalize b.step o a = next
  intro hturn
  cases hturn with
  | ignored _ unasked =>
    rw [unasked]
    exact ⟨⟨b.session, []⟩, ⟨rfl, rfl, fun _ hn ↦ .inl hn⟩, .refl b.session⟩
  | driven again _ wake unasked =>
    rw [unasked]
    exact ⟨_, .advance b again _, .resume b.session b.activity.wait wake a⟩
  | sent data unasked =>
    rw [unasked]
    exact ⟨_, .afterwards b _, .send b.session data⟩
  | followed size asked =>
    rw [asked]
    exact ⟨_, .afterwards b _, .resize hcurrent hopen size a⟩
  | stopped unasked =>
    rw [unasked]
    exact ⟨_, .advance b .stopping _, .terminate b.session a⟩
  | @granted id size rest next asked =>
    have hsettle := Continues.settle { b with notifications := rest }
      (b.session.resize size a).toTraced
    rw [asked]
    refine ⟨_, ⟨hsettle.session, hsettle.trace, ?_⟩, .resize hcurrent hopen size a⟩
    intro n hn
    rw [next]
    exact (hsettle.notifications n hn).imp_left (List.mem_cons_of_mem _)
  | passed _ session notifications unasked =>
    rw [unasked]
    refine ⟨⟨b.session, []⟩, ⟨(session_settle _).trans session, rfl, ?_⟩, .refl b.session⟩
    exact fun n hn ↦ .inl (notifications.subset (mem_notifications_settle hn))

end Bridge

section

open Emulation

/-- What is true of the window throughout a crossing of a title tracker: the terminal was first
given the configured size; each size in force that is empty was requested; the bridge sees to what
it was told; and what the program requests is what its output reports. -/
structure Viewed (options : SessionOptions) (sink : Sink) (x : Crossing TitleTracker) : Prop where
  first : (Session.sized x.trace).head? = some options.size
  asked : ∀ size, size = x.session.size ∨ size ∈ Session.sized x.trace → size.isEmpty = true →
    size ∈ requested x.trace
  notifications : ∀ n ∈ x.standing.notifications, .notified n ∈ x.trace
  emulation : ∃ size, x.session.emulation =
    { (replay ({ sink } : TitleTracker) (fed x.trace)).2 with size }
  requested : requested x.trace =
    sizeRequests (replay ({ sink } : TitleTracker) (fed x.trace)).1

variable {id : SessionId} {options : SessionOptions} {sink : Sink} {x : Crossing TitleTracker}

/-- A request that the owner is told of is one of those in the trace. -/
theorem mem_requested {size : WindowSize} {trace : List Effect}
    (h : .notified (.resizeRequested id size) ∈ trace) : size ∈ requested trace :=
  List.mem_filterMap.2 ⟨_, h, rfl⟩

namespace Viewed

/-- A size that a bridge is asked for is not empty unless the program has requested it. -/
theorem mem_requested_of_asked? {b : Bridge TitleTracker} {o : Occurrence} {size : WindowSize}
    (h : Viewed options sink x) (hb : x.standing = .crossing b)
    (husable : ∀ window, o = .windowChanged window → usableSize? window = window)
    (hasked : b.asked? o = some size) (hempty : size.isEmpty = true) :
    size ∈ Session.requested x.trace := by
  rcases Bridge.eq_of_asked? hasked with hwindow | ⟨id, hrequest⟩
  · have hsome := husable _ hwindow
    simp [usableSize?, Option.filter, hempty] at hsome
  · have hnotified : Effect.notified (.resizeRequested id size) ∈ x.trace := by
      refine h.notifications _ ?_
      rw [hb]
      exact hrequest
    exact mem_requested hnotified

/-- What is true of the window remains so in each turn, if the size of the user's window does not
count while that is empty. -/
theorem step (h : Viewed options sink x) (hcourse : OnCourse id options x)
    {event : Occurrence × Answers}
    (husable : ∀ window, event.1 = .windowChanged window → usableSize? window = window) :
    Viewed options sink (x.step event) := by
  cases hb : x.standing with
  | ended | failed | overflow =>
    have hstep : x.step event = x := by rw [Crossing.step, hb]
    rw [hstep]
    exact h
  | crossing b =>
  obtain ⟨hcurrent, hopen⟩ := hcourse.held hb
  obtain ⟨t, hcontinues, hdisplays⟩ := b.displays hcurrent hopen event.1 event.2
  have hsession : b.session = x.session := by
    rw [Crossing.session, hb]
    rfl
  -- the tracker may have been told of other sizes, which makes no difference to what it reads
  obtain ⟨known, hknown⟩ := h.emulation
  have hreplay : replay b.session.emulation (fed t.trace) =
      ((replay (replay ({ sink } : TitleTracker) (fed x.trace)).2 (fed t.trace)).1,
        { (replay (replay ({ sink } : TitleTracker) (fed x.trace)).2 (fed t.trace)).2 with
          size := known }) := by
    rw [hsession, hknown, replay_resized]
  rw [show event = (event.1, event.2) from rfl, Crossing.step_of_crossing hb, hcontinues.trace]
  refine ⟨?_, ?_, ?_, ?_, ?_⟩
  · rw [Session.sized_append, List.head?_append, h.first]
    rfl
  · intro size hsize hempty
    rw [Session.requested_append, List.mem_append]
    left
    change size = (b.step event.1 event.2).1.session.size ∨ _ at hsize
    rw [hcontinues.session, Session.sized_append, List.mem_append, or_left_comm] at hsize
    rcases hsize with hbefore | hturn
    · exact h.asked size (.inr hbefore) hempty
    · rcases hdisplays.eq_of_size hturn with hasked | hkept
      · exact h.mem_requested_of_asked? hb husable hasked hempty
      · exact h.asked size (.inl (hkept.trans (congrArg Session.size hsession))) hempty
  · intro n hn
    rw [List.mem_append]
    refine (hcontinues.notifications n hn).imp_left fun hbefore ↦ h.notifications n ?_
    rw [hb]
    exact hbefore
  · show ∃ size, (b.step event.1 event.2).1.session.emulation = _
    rw [hcontinues.session, hdisplays.emulation, hreplay, Session.fed_append, replay_append]
    obtain ⟨size, hlast⟩ := exists_foldl_resized
      { (replay (replay ({ sink } : TitleTracker) (fed x.trace)).2 (fed t.trace)).2 with
        size := known } (Session.sized t.trace)
    exact ⟨size, hlast⟩
  · show Session.requested (x.trace ++ t.trace) =
      sizeRequests (replay _ (fed (x.trace ++ t.trace))).1
    rw [Session.requested_append, h.requested, hdisplays.requested, hreplay, Session.fed_append,
      replay_append]
    exact List.filterMap_append.symm

/-- What is true of the window remains so whatever happens. -/
theorem run (h : Viewed options sink x) (hcourse : OnCourse id options x)
    {events : List (Occurrence × Answers)}
    (husable : ∀ event ∈ events, ∀ window, event.1 = .windowChanged window →
      usableSize? window = window) :
    Viewed options sink (x.run events) := by
  induction events generalizing x with
  | nil => exact h
  | cons event events ih =>
    rw [List.forall_mem_cons] at husable
    exact ih (h.step hcourse husable.1) (hcourse.step event) husable.2

/-- What is true of the window when the program was started with a size that is not empty. -/
theorem start {program : String} {a : Answers}
    (hstarted : ((Session.new id options ({ sink } : TitleTracker)).run program a).verdict =
      .done ())
    (hfull : options.size.isEmpty = false) (followsWindow : Bool) :
    Viewed options sink
      (Crossing.start (.new id options ({ sink } : TitleTracker)) program a followsWindow) := by
  obtain ⟨hsize, hemulation, hsized, hrequested, hfed⟩ :=
    Session.sized_run (s := .new id options ({ sink } : TitleTracker)) rfl rfl hstarted
  have hsession : (Crossing.start (.new id options ({ sink } : TitleTracker)) program a
      followsWindow).session =
        ((Session.new id options ({ sink } : TitleTracker)).run program a).session := by
    rw [Crossing.session, Crossing.start, hstarted]
    rfl
  have htrace : (Crossing.start (.new id options ({ sink } : TitleTracker)) program a
      followsWindow).trace =
        ((Session.new id options ({ sink } : TitleTracker)).run program a).trace := rfl
  refine ⟨?_, ?_, ?_, ?_, ?_⟩
  · rw [htrace, hsized]
    rfl
  · intro size h hempty
    rw [hsession, hsize, htrace, hsized, List.mem_singleton] at h
    have hconfigured : size = options.size := or_self_iff.1 h
    subst hconfigured
    rw [hfull] at hempty
    cases hempty
  · intro n hn
    rw [Crossing.start, hstarted] at hn
    cases hn
  · rw [hsession, hemulation, htrace, hfed]
    exact ⟨_, rfl⟩
  · rw [htrace, hrequested, hfed]
    rfl

end Viewed

end

/-- What goes on with a value and succeeds has got one. -/
theorem exists_of_bind_eq_ok {e α β : Type} {x : Except e α} {f : α → Except e β} {y : β}
    (h : x >>= f = .ok y) : ∃ value, x = .ok value ∧ f value = .ok y := by
  cases x with
  | error => cases h
  | ok value => exact ⟨value, rfl, h⟩

/-- The configuration of what is planned can be used. -/
theorem validate_of_plan {fs : FileSystem} {cwd : Place} {environment : Environment}
    {window : Option WindowSize} {args : RunArguments} {p : Plan}
    (h : plan fs cwd environment window args = .ok p) : p.config.validate = none := by
  obtain ⟨loaded, -, h⟩ := exists_of_bind_eq_ok h
  obtain ⟨config, hvalidated, h⟩ := exists_of_bind_eq_ok h
  have hconfig : p.config = config := by
    dsimp only at h
    split at h <;> cases h <;> rfl
  rw [hconfig]
  exact (Config.validated_eq_ok_iff.1 hvalidated).2

section

open Emulation

/-- Which window sizes are in force. What is planned is run with a size that is not empty, and the
terminal is given that first. After that a bridge does in each turn what it is asked for: the
session has the size of the user's window, or the one that it is the turn of among those that the
program has requested, and so has the terminal, if it takes it. So at all times, whatever happens in
whatever order, a size that the session or the terminal has had is empty only if the program has
requested it; and what it has requested is what a title tracker reports of the output. -/
theorem window_in_force {fs : FileSystem} {cwd : Place} {environment : Environment}
    {window : Option WindowSize} {args : RunArguments} {p : Plan}
    (hplan : plan fs cwd environment window args = .ok p) (home : Option Path) :
    ∃ options, SessionOptions.ofConfig home p.config.session = .ok options ∧
      options.size.isEmpty = false ∧
      ∀ (id : SessionId) (sink : Sink) (a : Answers) (followsWindow : Bool)
        (events : List (Occurrence × Answers)),
        ((Session.new id options ({ sink } : TitleTracker)).run p.program a).verdict = .done () →
        (∀ event ∈ events, ∀ window, event.1 = .windowChanged window →
          usableSize? window = window) →
        let x := (Crossing.start (.new id options ({ sink } : TitleTracker)) p.program a
          followsWindow).run events
        (Session.sized x.trace).head? = some options.size ∧
        (∀ size, size = x.session.size ∨ size ∈ Session.sized x.trace → size.isEmpty = true →
          size ∈ requested x.trace) ∧
        requested x.trace =
          sizeRequests (replay ({ sink } : TitleTracker) (fed x.trace)).1 ∧
        ∀ b, x.standing = .crossing b → ∀ o answers,
          (b.step o answers).1.session.size = (b.asked? o).getD b.session.size ∧
          Session.sized (b.step o answers).2 =
            if answers.setWindowSize.toBool then (b.asked? o).toList else [] := by
  obtain ⟨options, hoptions, -, -, hfull⟩ :=
    Session.ofConfig_of_validate home (validate_of_plan hplan)
  refine ⟨options, hoptions, hfull, ?_⟩
  intro id sink a followsWindow events hstarted husable x
  have hcourse := OnCourse.start hstarted followsWindow
  have hviewed : Viewed options sink x :=
    (Viewed.start hstarted hfull followsWindow).run hcourse husable
  refine ⟨hviewed.first, hviewed.asked, hviewed.requested, ?_⟩
  intro b hb o answers
  obtain ⟨hcurrent, hopen⟩ := (hcourse.run events).held hb
  obtain ⟨t, hcontinues, hdisplays⟩ := b.displays hcurrent hopen o answers
  rw [hcontinues.session, hcontinues.trace]
  exact ⟨hdisplays.size, hdisplays.sized⟩

/-- A program asks for a window without rows and columns, and its terminal is given one. -/
theorem window_in_force_empty :
    ∃ (p : Plan) (options : SessionOptions), plan {} [] {} none { command := ["sh"] } = .ok p ∧
      SessionOptions.ofConfig none p.config.session = .ok options ∧
      options.size.isEmpty = false ∧
      let x := (Crossing.start (.new 1 options ({} : TitleTracker)) p.program {} false).run
        [(.woke (.output [0x1B, 0x5B, 0x38, 0x3B, 0x30, 0x3B, 0x30, 0x74]), {}), (.notified, {})]
      x.session.size = ⟨0, 0⟩ ∧ (Session.sized x.trace).head? = some options.size ∧
        ⟨0, 0⟩ ∈ Session.sized x.trace ∧ ⟨0, 0⟩ ∈ requested x.trace := by
  have hplan : plan {} [] {} none { command := ["sh"] } = .ok ⟨{}, "sh", [], "xterm"⟩ := rfl
  obtain ⟨options, hoptions, hfull, hlaw⟩ := window_in_force hplan none
  obtain rfl : options = {} := Except.ok.inj (hoptions.symm.trans rfl)
  obtain ⟨hfirst, hempty, -⟩ := hlaw 1 {} {} false
    [(.woke (.output [0x1B, 0x5B, 0x38, 0x3B, 0x30, 0x3B, 0x30, 0x74]), {}), (.notified, {})]
    (by decide) (by simp)
  refine ⟨_, {}, hplan, hoptions, hfull, by decide, hfirst, by decide, ?_⟩
  exact hempty ⟨0, 0⟩ (.inl (by decide)) (by decide)

end

end CommandLine

end PtyHost

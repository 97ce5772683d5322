import PtyHost.Proofs.Session.Watch

/-!
# The points in time that a session asks for

A session asks the clock for the end of its silence countdown, and only for that: the end of a grace
period need not be shown. How long the countdown is comes from the configuration and stays as it is
unless the owner sets it. A configuration is checked for a countdown that has no length, and not for
one that is too long for the clock.

Main statement: `validated_deadlines`.
-/

namespace PtyHost

namespace Session

/-- Whether a move leaves the options of a session as they are. -/
def Move.keepsOptions : Move → Bool
  | .setMonitorActivity _ | .setMonitorSilence .. | .setSilenceTimeout .. => false
  | _ => true

/-- Whether a move leaves the time that counts as silence as it is. -/
def Move.keepsSpan : Move → Bool
  | .setSilenceTimeout .. => false
  | _ => true

/-- A configuration that can be used has options, with its time that counts as silence and its
window size, which is not empty. -/
theorem ofConfig_of_validate {config : Config} (home : Option Path)
    (hvalid : config.validate = none) :
    ∃ options, SessionOptions.ofConfig home config.session = .ok options ∧
      options.silenceTimeout = config.session.silenceSeconds * 1000 ∧
      options.size = ⟨config.session.rows, config.session.cols⟩ ∧
      options.size.isEmpty = false := by
  obtain ⟨hrows, hcols, -, -, signal, hsignal⟩ := (Config.validate_eq_none_iff config).1 hvalid
  unfold SessionOptions.ofConfig
  rw [hsignal]
  refine ⟨_, rfl, rfl, rfl, ?_⟩
  simp [WindowSize.isEmpty, hrows, hcols]

variable {ε : Type}

namespace Course

variable {c : Course ε} {m : Move}

/-- A countdown starts at the time of the move that starts it, and is as long as the session has
it. -/
theorem mem_arms? (h : m.keepsSpan = true) {d : Countdown} (hd : d ∈ c.arms? m) :
    m.time? = some d.now ∧ d.span = c.session.options.silenceTimeout := by
  unfold arms? at hd
  cases m with
  | run | setMonitorSilence | happen =>
    dsimp only at hd
    split at hd
    · obtain rfl := Option.some.inj hd
      exact ⟨rfl, rfl⟩
    · cases hd
  | setSilenceTimeout => cases h
  | _ => cases hd

end Course

variable [Emulation ε]

/-- What happens to an operation that waits leaves the options as they are. -/
theorem Happening.options {c : Course ε} {a : Answers} {wake : Wake} {t : Traced ε}
    (h : Happening c a wake t) : t.session.options = c.session.options := by
  have hfeed (s : Session ε) (block : Bytes) : (s.feed block).session.options = s.options := by
    obtain ⟨_, -, hserved⟩ := Served.feed s block
    exact hserved.options
  have hmodify (s : Session ε) (f : Running → Running) :
      (s.modifyRunning f).options = s.options := by
    unfold modifyRunning
    split <;> rfl
  cases h with
  | noted block =>
    have hnoting := noting c.session block a.now
    revert hnoting
    generalize c.session.noteOutput block a.now = o
    intro hnoting
    cases hnoting with
    | unwatched => exact hfeed c.session block
    | lost => rfl
    | watched => exact (hfeed _ block).trans (hmodify _ _)
  | collected block => exact hfeed c.session block
  | elapsed =>
    unfold Session.silenceElapsed
    dsimp only
    split
    · exact hmodify _ _
    · exact hmodify _ _
  | completed s status =>
    obtain ⟨titles, hsession⟩ := session_complete (c.session.setRunning s) status a
    rw [hsession]
    rfl
  | killed => exact (Served.signal c.session .kill a).options
  | wrote | cleared | closed | learnt | failed => rfl

namespace Course

variable {c : Course ε} {m : Move}

/-- The options of a session stay as they are unless the owner sets them. -/
theorem options_step (hc : c.session.phase.WellFormed) (h : m.keepsOptions = true) :
    (c.step m).session.options = c.session.options := by
  by_cases hserves : m.serves = true
  · exact (served_act hserves c.session c.waiting).options
  cases m with
  | run program a =>
    show (c.session.run program a).session.options = _
    have hattempt := attempt hc program a
    revert hattempt
    generalize c.session.run program a = o
    intro hattempt
    cases hattempt <;> rfl
  | setMonitorActivity | setMonitorSilence | setSilenceTimeout => cases h
  | happen wake a =>
    cases hheard : c.heard? (.happen wake a) with
    | none =>
      show (c.advance (.happen wake a)).toTraced.session.options = _
      rw [advance_of_silent hheard]
    | some heard =>
      obtain rfl := eq_of_heard? hheard
      exact (happening hheard).options
  | _ => exact absurd rfl hserves

/-- The time that counts as silence stays as it is unless the owner sets it. -/
theorem span_step (hc : c.session.phase.WellFormed) (h : m.keepsSpan = true) :
    (c.step m).session.options.silenceTimeout = c.session.options.silenceTimeout := by
  by_cases hkeeps : m.keepsOptions = true
  · exact congrArg SessionOptions.silenceTimeout (options_step hc hkeeps)
  cases m with
  | setMonitorActivity => rfl
  | setMonitorSilence monitor now =>
    have hrearmed (s : Session ε) : (s.rearmed now).session.options = s.options := by
      unfold rearmed armSilence modifyRunning
      cases Clock.after? now s.options.silenceTimeout <;> cases s.running? <;> rfl
    show (c.session.setMonitorSilence monitor now).session.options.silenceTimeout = _
    unfold Session.setMonitorSilence
    split
    · rfl
    dsimp only
    split
    · rw [hrearmed]
    split
    · rfl
    · unfold modifyRunning
      split <;> rfl
  | setSilenceTimeout => cases h
  | _ => exact absurd rfl hkeeps

/-- The time that counts as silence stays as it is in moves that do not set it. -/
theorem span_run (hc : c.session.phase.WellFormed) {moves : List Move}
    (h : ∀ m ∈ moves, m.keepsSpan = true) :
    (c.run moves).session.options.silenceTimeout = c.session.options.silenceTimeout := by
  induction moves generalizing c with
  | nil => rfl
  | cons m moves ih =>
    rw [List.forall_mem_cons] at h
    exact (ih (wellFormed_step hc m) h.2).trans (span_step hc h.1)

/-- A move that does not set the time that counts as silence asks for a point in time that the clock
cannot show exactly if it starts a countdown that ends beyond the clock. -/
theorem overflows_of_keepsSpan (hc : c.session.phase.WellFormed) (h : m.keepsSpan = true) :
    c.overflows m = true ↔
      ∃ now, c.arms? m = some ⟨now, c.session.options.silenceTimeout⟩ ∧
        Clock.latest < now + c.session.options.silenceTimeout := by
  rw [overflows_iff hc]
  constructor
  · rintro ⟨⟨now, span⟩, hd, hbeyond⟩
    obtain ⟨-, rfl⟩ := mem_arms? h hd
    refine ⟨now, hd, ?_⟩
    simpa [Countdown.end?, Clock.after?] using hbeyond
  · rintro ⟨now, harms, hbeyond⟩
    refine ⟨_, harms, ?_⟩
    simpa [Countdown.end?, Clock.after?] using hbeyond

/-- Moves stay in time that do not set the time that counts as silence, if the clock can show what
comes that long after the last of them. -/
theorem staysInTime_of_le (hc : c.session.phase.WellFormed) {time : Nat} {moves : List Move}
    (h : ∀ m ∈ moves, m.keepsSpan = true ∧ ∀ t ∈ m.time?, t ≤ time)
    (hshown : time + c.session.options.silenceTimeout ≤ Clock.latest) :
    c.staysInTime moves = true := by
  induction moves generalizing c with
  | nil => rfl
  | cons m moves ih =>
    rw [List.forall_mem_cons] at h
    obtain ⟨⟨hkeeps, htime⟩, hrest⟩ := h
    have hin : c.overflows m ≠ true := by
      rw [ne_eq, overflows_of_keepsSpan hc hkeeps]
      rintro ⟨now, harms, hbeyond⟩
      have hnow := htime now (mem_arms? hkeeps harms).1
      omega
    have hnext : (c.step m).staysInTime moves = true := by
      refine ih (wellFormed_step hc m) hrest ?_
      rw [span_step hc hkeeps]
      exact hshown
    rw [staysInTime, hnext, Bool.eq_false_iff.2 hin]
    rfl

/-- The countdown starts when silence monitoring is turned off and on again, whether or not a
program is running. -/
theorem shown_of_staysInTime (hc : c.session.phase.WellFormed) {time : Nat}
    (h : c.staysInTime [.setMonitorSilence false time, .setMonitorSilence true time] = true) :
    time + c.session.options.silenceTimeout ≤ Clock.latest := by
  have hoff : (c.step (.setMonitorSilence false time)).session.options.monitorSilence = false := by
    show (c.session.setMonitorSilence false time).session.options.monitorSilence = false
    unfold Session.setMonitorSilence
    split
    · next hsame => exact hsame
    dsimp only
    split
    · next hon => cases hon
    split
    · rfl
    · unfold modifyRunning
      split <;> rfl
  have hspan := span_step (m := .setMonitorSilence false time) hc rfl
  simp only [staysInTime, Bool.and_eq_true, Bool.not_eq_true', Bool.and_true] at h
  have hin := h.2
  rw [← Nat.not_lt]
  intro hbeyond
  rw [Bool.eq_false_iff, ne_eq, overflows_of_keepsSpan (wellFormed_step hc _) rfl, hspan] at hin
  refine hin ⟨time, ?_, hbeyond⟩
  simp [arms?, hoff, hspan]

end Course

/-- Which points in time the sessions of a configuration ask for. A configuration that can be used
has options, and as long as the owner does not set the time that counts as silence, a move asks for
a point in time that the clock cannot show exactly if it starts a silence countdown and the
configured span reaches beyond the clock from there; to end a program, whatever the grace period,
never does. So all courses whose clock does not go beyond some time stay in time exactly if the
clock can show the configured span after it. -/
theorem validated_deadlines (home : Option Path) (config : Config)
    (hvalid : config.validate = none) :
    ∃ options, SessionOptions.ofConfig home config.session = .ok options ∧
      ∀ (id : SessionId) (e : ε),
        let span := config.session.silenceSeconds * 1000
        let start := Course.start (.new id options e)
        (∀ moves, (∀ m ∈ moves, m.keepsSpan = true) →
          let c := start.run moves
          (∀ m, m.keepsSpan = true → (c.overflows m = true ↔
            ∃ now, c.arms? m = some ⟨now, span⟩ ∧ Clock.latest < now + span)) ∧
          ∀ a, c.overflows (.terminate a) = false ∧ c.overflows (.kill a) = false ∧
            c.overflows (.happen .graceOver a) = false) ∧
        ∀ time,
          (∀ moves, (∀ m ∈ moves, m.keepsSpan = true ∧ ∀ t ∈ m.time?, t ≤ time) →
            start.staysInTime moves = true) ↔ time + span ≤ Clock.latest := by
  obtain ⟨options, hoptions, hspan, -⟩ := ofConfig_of_validate home hvalid
  refine ⟨options, hoptions, ?_⟩
  intro id e span start
  have hstart : start.session.options.silenceTimeout = span := hspan
  have hfresh : start.session.phase.WellFormed := Phase.wellFormed_idle
  refine ⟨?_, ?_⟩
  · intro moves hmoves c
    have hc : c.session.options.silenceTimeout = span :=
      (Course.span_run hfresh hmoves).trans hstart
    refine ⟨?_, ?_⟩
    · intro m hm
      rw [Course.overflows_of_keepsSpan (Course.wellFormed_run hfresh moves) hm, hc]
    · intro a
      refine ⟨Course.overflows_of_serves rfl, Course.overflows_of_serves rfl, ?_⟩
      refine Course.overflows_of_deaf ?_
      intro block hheard
      cases Course.eq_of_heard? hheard
  · intro time
    constructor
    · intro hin
      rw [← hstart]
      refine Course.shown_of_staysInTime hfresh (hin _ ?_)
      simp [Move.keepsSpan, Move.time?]
    · intro hshown moves hmoves
      exact Course.staysInTime_of_le hfresh hmoves (hstart ▸ hshown)

/-- The configuration in which silence is monitored and takes the longest time that a file can
give. -/
def longestSilence : Config :=
  { session := { monitorSilence := true, silenceSeconds := 9223372036854775807 } }

/-- The clock can show the end of the longest silence in its first second only, and a program that
is run later is not started. -/
theorem validated_deadlines_beyond :
    longestSilence.validate = none ∧
      ∃ options, SessionOptions.ofConfig none longestSilence.session = .ok options ∧
        let start := Course.start (.new 1 options Emulation.Discard.mk)
        start.overflows (.run "sh" { now := 1000 }) = true ∧
        ∀ moves, (∀ m ∈ moves, m.keepsSpan = true ∧ ∀ t ∈ m.time?, t ≤ 999) →
          start.staysInTime moves = true := by
  have hvalid : longestSilence.validate = none := by decide
  have hconfigured : SessionOptions.ofConfig none longestSilence.session =
      .ok { monitorSilence := true, silenceTimeout := 9223372036854775807 * 1000 } := rfl
  obtain ⟨options, hoptions, hdeadlines⟩ :=
    validated_deadlines (ε := Emulation.Discard) none longestSilence hvalid
  obtain ⟨hlaw, hwithin⟩ := hdeadlines 1 Emulation.Discard.mk
  refine ⟨hvalid, options, hoptions, ?_, (hwithin 999).2 (by decide)⟩
  obtain rfl := Except.ok.inj (hoptions.symm.trans hconfigured)
  refine ((hlaw [] (by simp)).1 (.run "sh" { now := 1000 }) rfl).2 ⟨1000, ?_, by decide⟩
  rw [Course.run_nil, Course.arms?, if_pos ⟨by decide, rfl⟩]
  rfl

end Session

end PtyHost

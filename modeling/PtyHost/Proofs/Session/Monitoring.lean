import PtyHost.Proofs.Session.Watch

/-!
# What the owner is told about output

The incidents of a course that matter to the monitoring of output are kept in a diary, the newest
first. The diary tells which output is the first of a burst and how long it has been quiet, and what
a session tells its owner is what the diary says, as long as the clock can show the end of every
countdown.

Main statements: `Attends` and `Punctual` are what every move keeps, and `output_watched` is what
follows from them for a whole course.
-/

namespace PtyHost.Session

/-- Whether no output was dispatched since the program was started, the countdown came to its end,
or the monitoring of activity was set. -/
def isFresh : List Incident → Bool
  | [] => true
  | .dispatched _ :: _ => false
  | .restarted :: diary => isFresh diary
  | _ :: _ => true

/-- Whether output was dispatched or the owner started the countdown again since silence was
told. -/
def isRenewed : List Incident → Bool
  | [] => true
  | .dispatched _ :: _ | .restarted :: _ => true
  | .expired true :: _ => false
  | _ :: diary => isRenewed diary

namespace Watch

/-- A watch that remembers what the diary says: its mark is set exactly if the burst is not new, as
long as activity is monitored, and there is a countdown only if something has happened since silence
was told. -/
structure Attends (w : Watch) (diary : List Incident) : Prop where
  marked : w.activity = true → w.notified = !isFresh diary
  renewed : w.countdown ≠ none → isRenewed diary = true
  unstarted : w.state = .idle → isRenewed diary = true
  alone : w.state ≠ .running → w.countdown = none

/-- A watch whose mark does not stay set: where output is watched for and was announced, there is a
countdown. -/
structure Armed (w : Watch) : Prop where
  idle : w.state = .idle → w.notified = false
  running : w.state = .running → w.watches = true → w.notified = true → w.countdown ≠ none

/-- A watch whose countdown does not end too early: no output has been dispatched later than the
clock shows, and where silence is monitored the countdown ends no earlier than its span after any
output. -/
structure Punctual (w : Watch) (diary : List Incident) (now : Nat) : Prop where
  past : ∀ t, .dispatched t ∈ diary → t ≤ now
  due : w.silence = true → ∀ d ∈ w.countdown, ∀ t, .dispatched t ∈ diary → t + w.span ≤ d

variable {w v : Watch} {now : Nat} {arms : Option Countdown} {incident : Option Incident}
  {told : List Sign} {diary : List Incident}

/-- A watch goes on to remember what the diary says. -/
theorem Attends.shift (h : Attends w diary) (hshift : Shift w now arms incident told v) :
    Attends v (incident.toList ++ diary) := by
  cases hshift with
  | steady => exact h
  | ended => exact ⟨h.marked, fun hcounting ↦ absurd rfl hcounting, by simp, fun _ ↦ rfl⟩
  | started idle within silent =>
    have hrenewed : isRenewed (.started :: diary) = true := h.unstarted idle
    exact ⟨fun _ ↦ rfl, fun _ ↦ hrenewed, fun _ ↦ hrenewed, fun hstopped ↦ absurd rfl hstopped⟩
  | begun idle deaf =>
    have hrenewed : isRenewed (.started :: diary) = true := h.unstarted idle
    exact ⟨fun _ ↦ rfl, fun _ ↦ hrenewed, fun _ ↦ hrenewed, fun _ ↦ rfl⟩
  | aborted | reset => exact ⟨fun _ ↦ rfl, h.renewed, h.unstarted, h.alone⟩
  | unheard | respanned | missed => exact ⟨h.marked, h.renewed, h.unstarted, h.alone⟩
  | stopped inactive =>
    rw [counting_none]
    exact ⟨h.marked, fun hcounting ↦ absurd rfl hcounting, h.unstarted, fun _ ↦ rfl⟩
  | restarted within =>
    exact ⟨h.marked, fun _ ↦ rfl, fun _ ↦ rfl, fun hstopped ↦ if_neg hstopped⟩
  | passed running unwatched =>
    refine ⟨?_, fun _ ↦ rfl, fun _ ↦ rfl, h.alone⟩
    intro hactivity
    rw [watches, hactivity] at unwatched
    cases unwatched
  | noted running watched within =>
    exact ⟨fun _ ↦ rfl, fun _ ↦ rfl, fun _ ↦ rfl, fun hstopped ↦ absurd running hstopped⟩
  | lost => exact ⟨fun _ ↦ rfl, fun _ ↦ rfl, fun _ ↦ rfl, h.alone⟩
  | expired due =>
    refine ⟨fun _ ↦ rfl, fun hcounting ↦ absurd rfl hcounting, ?_, fun _ ↦ rfl⟩
    intro hidle
    obtain ⟨t, hcounting, -⟩ := due
    rw [h.alone (by simp [show w.state = .idle from hidle])] at hcounting
    cases hcounting

/-- A mark that is set goes on to be cleared in the end, if the clock can show the end of the
countdown that is to start. -/
theorem Armed.shift (h : Armed w) (hshift : Shift w now arms incident told v)
    (hin : ∀ d ∈ arms, d.end? ≠ none) : Armed v := by
  cases hshift with
  | steady | passed => exact h
  | ended => exact ⟨by simp, by simp⟩
  | started | begun | aborted | reset | expired => exact ⟨fun _ ↦ rfl, fun _ _ h ↦ by cases h⟩
  | unheard active =>
    refine ⟨h.idle, fun hrunning _ ↦ h.running hrunning ?_⟩
    rw [watches, active, Bool.true_or]
  | stopped inactive =>
    refine ⟨h.idle, ?_⟩
    intro _ hwatches
    rw [counting_none, watches, show w.activity = false from inactive] at hwatches
    cases hwatches
  | respanned => exact ⟨h.idle, h.running⟩
  | @restarted span t within =>
    refine ⟨h.idle, ?_⟩
    intro hrunning _ _
    replace hrunning : w.state = .running := hrunning
    show (if w.state = .running then some t else none) ≠ none
    rw [if_pos hrunning]
    exact Option.some_ne_none t
  | @noted t running =>
    refine ⟨?_, fun _ _ _ ↦ Option.some_ne_none t⟩
    intro hidle
    cases running.symm.trans hidle
  | missed beyond => exact absurd beyond (hin _ rfl)
  | lost running watched beyond => exact absurd beyond (hin _ rfl)

/-- A countdown that starts does not end too early, and one that goes on does not either. -/
theorem Punctual.shift {last : Nat} (h : Punctual w diary last) (hlast : last ≤ now)
    (hshift : Shift w now arms incident told v) (hin : ∀ d ∈ arms, d.end? ≠ none) :
    Punctual v (incident.toList ++ diary) now := by
  have hpast : ∀ t, .dispatched t ∈ diary → t ≤ now :=
    fun t ht ↦ Nat.le_trans (h.past t ht) hlast
  have hold {i : Incident} (hi : ∀ t, i ≠ .dispatched t) {t : Nat}
      (ht : .dispatched t ∈ (some i).toList ++ diary) : .dispatched t ∈ diary := by
    rcases List.mem_cons.1 ht with heq | hmem
    · exact absurd heq.symm (hi t)
    · exact hmem
  have hnow : ∀ t, .dispatched t ∈ (some (.dispatched now)).toList ++ diary → t ≤ now := by
    intro t ht
    rcases List.mem_cons.1 ht with heq | hmem
    · cases heq
      exact Nat.le_refl now
    · exact hpast t hmem
  -- a countdown that starts now ends its span after the clock, and output was dispatched before
  have hstart {i : Incident} {span d : Nat} (within : Clock.after? now span = some d)
      (hnew : ∀ t, .dispatched t ∈ (some i).toList ++ diary → t ≤ now) {t : Nat}
      (ht : .dispatched t ∈ (some i).toList ++ diary) : t + span ≤ d := by
    have hle := hnew t ht
    obtain ⟨hend, -⟩ := Clock.after?_eq_some_iff.1 within
    omega
  cases hshift with
  | steady => exact ⟨hpast, h.due⟩
  | ended =>
    refine ⟨hpast, ?_⟩
    intro _ d hd
    cases hd
  | started idle within silent =>
    have hnew := fun t ht ↦ hpast t (hold (i := .started) (by simp) ht)
    refine ⟨hnew, ?_⟩
    intro _ d hd t ht
    cases hd
    exact hstart within hnew ht
  | begun idle deaf =>
    refine ⟨fun t ht ↦ hpast t (hold (by simp) ht), ?_⟩
    intro hsilence
    cases deaf.symm.trans hsilence
  | reset =>
    exact ⟨fun t ht ↦ hpast t (hold (by simp) ht),
      fun hsilence d hd t ht ↦ h.due hsilence d hd t (hold (by simp) ht)⟩
  | unheard | stopped =>
    refine ⟨hpast, ?_⟩
    intro hsilence
    cases hsilence
  | respanned span deaf =>
    refine ⟨hpast, ?_⟩
    intro hsilence
    cases deaf.symm.trans hsilence
  | @restarted span e within =>
    have hnew := fun t ht ↦ hpast t (hold (i := .restarted) (by simp) ht)
    refine ⟨hnew, ?_⟩
    intro _ d hd t ht
    replace hd : d ∈ if w.state = .running then some e else none := hd
    split at hd
    · cases hd
      exact hstart within hnew ht
    · cases hd
  | passed running unwatched =>
    refine ⟨hnow, ?_⟩
    intro hsilence
    rw [watches, hsilence, Bool.or_true] at unwatched
    cases unwatched
  | noted running watched within =>
    refine ⟨hnow, ?_⟩
    intro _ d hd t ht
    cases hd
    exact hstart within hnow ht
  | expired due =>
    refine ⟨fun t ht ↦ hpast t (hold (by simp) ht), ?_⟩
    intro _ d hd
    cases hd
  | aborted idle beyond => exact absurd beyond (hin _ rfl)
  | missed beyond => exact absurd beyond (hin _ rfl)
  | lost running watched beyond => exact absurd beyond (hin _ rfl)

end Watch

variable {ε : Type} [Emulation ε]

namespace Course

/-- The incidents of some moves, the newest first. -/
def diary (c : Course ε) : List Move → List Incident
  | [] => []
  | m :: moves => (c.step m).diary moves ++ (c.incident? m).toList

variable {c : Course ε} {moves : List Move} {log : List Incident}

/-- A session remembers what its diary says throughout a course. -/
theorem attends_run (hc : c.session.phase.WellFormed) (h : c.session.watch.Attends log) :
    (c.run moves).session.watch.Attends (c.diary moves ++ log) := by
  -- By induction on the moves; the diary so far is carried along, since a move adds to it in front.
  induction moves generalizing c log with
  | nil => exact h
  | cons m moves ih =>
    rw [run_cons, diary, List.append_assoc]
    exact ih (wellFormed_step hc m) (h.shift (shift hc m m.eq_time))

/-- A move that does not ask for what the clock cannot show starts no countdown without an end. -/
theorem end?_ne_none (hc : c.session.phase.WellFormed) {m : Move} (h : c.overflows m = false) :
    ∀ d ∈ c.arms? m, d.end? ≠ none := by
  intro d hd hend
  rw [(overflows_iff hc).2 ⟨d, hd, hend⟩] at h
  cases h

/-- The mark of a session does not stay set throughout a course that stays in time. -/
theorem armed_run (hc : c.session.phase.WellFormed) (h : c.session.watch.Armed)
    (hin : c.staysInTime moves = true) : (c.run moves).session.watch.Armed := by
  refine (invariant_run (P := fun c ↦ c.session.phase.WellFormed ∧ c.session.watch.Armed) ?_
    ⟨hc, h⟩ hin).2
  intro c m h hstep
  exact ⟨wellFormed_step h.1 m, h.2.shift (shift h.1 m m.eq_time) (end?_ne_none h.1 hstep)⟩

/-- Countdowns do not end too early throughout a course that stays in time, while the clock does not
go back. -/
theorem punctual_run (hc : c.session.phase.WellFormed) {last : Nat}
    (h : c.session.watch.Punctual log last)
    (hin : c.staysInTime moves = true)
    (hclock : (last :: moves.filterMap Move.time?).Pairwise (· ≤ ·)) :
    ∃ now, (c.run moves).session.watch.Punctual (c.diary moves ++ log) now := by
  induction moves generalizing c log last with
  | nil => exact ⟨last, h⟩
  | cons m moves ih =>
    simp only [staysInTime, Bool.and_eq_true, Bool.not_eq_true'] at hin
    rw [run_cons, diary, List.append_assoc]
    have hstep {now : Nat} (hnow : ∀ t ∈ m.time?, t = now) (hlast : last ≤ now) :
        (c.step m).session.watch.Punctual ((c.incident? m).toList ++ log) now :=
      h.shift hlast (shift hc m hnow) (end?_ne_none hc hin.1)
    have hnext := wellFormed_step hc m
    cases htime : m.time? with
    | none =>
      rw [List.filterMap_cons_none htime] at hclock
      exact ih hnext (hstep (by simp [htime]) (Nat.le_refl last)) hin.2 hclock
    | some t =>
      rw [List.filterMap_cons_some htime] at hclock
      obtain ⟨hlast, hrest⟩ := List.pairwise_cons.1 hclock
      exact ih hnext (hstep (by simp [htime]) (hlast t List.mem_cons_self)) hin.2 hrest

end Course

/-- What the owner is told about output at any point of a course. As long as the clock can show the
end of every countdown that starts, a session in which output is watched for and was announced has a
countdown that will clear its mark. In a move that dispatches a block of output the owner is told of
activity exactly if that is monitored and the diary says that this is the first block since the
program was started, the countdown came to its end or he set the monitoring of activity; he is told
of silence exactly when the countdown comes to its end while silence is monitored; and he is told
nothing else. When the countdown comes to its end, output was dispatched or he started the countdown
again since he was told of silence last, and no output was dispatched during the time that counts as
silence, as long as the clock can show the end of every countdown and does not go back. The clock
cannot show the end of a countdown exactly where that is asked of it in a move that starts one. -/
theorem output_watched (id : SessionId) (options : SessionOptions) (e : ε) (moves : List Move) :
    let start := Course.start (.new id options e)
    let c := start.run moves
    let diary := start.diary moves
    (start.staysInTime moves = true → c.session.isRunning = true →
      c.session.monitorsOutput = true → c.session.notified = true →
      c.session.countdown?.isSome = true) ∧
    (∀ m, signs (c.advance m).trace =
      match c.incident? m with
      | some (.dispatched _) =>
        if c.session.options.monitorActivity ∧ isFresh diary then [.activity] else []
      | some (.expired _) => if c.session.options.monitorSilence then [.silence] else []
      | _ => []) ∧
    (∀ a, c.heard? (.happen .silence a) = some .silence →
      isRenewed diary = true ∧
      (start.staysInTime moves = true → (moves.filterMap Move.time?).Pairwise (· ≤ ·) →
        c.session.options.monitorSilence = true →
        ∀ t, .dispatched t ∈ diary → t + c.session.options.silenceTimeout ≤ a.now)) ∧
    ∀ m, c.overflows m = true ↔
      ∃ d ∈ c.arms? m, Clock.after? d.now d.span = none := by
  intro start c diary
  have hfresh : start.session.phase.WellFormed := Phase.wellFormed_idle
  have hc : c.session.phase.WellFormed := Course.wellFormed_run hfresh moves
  have hattends : c.session.watch.Attends diary := by
    have hstart : start.session.watch.Attends [] :=
      ⟨fun _ ↦ rfl, fun hcounting ↦ absurd rfl hcounting, fun _ ↦ rfl, fun _ ↦ rfl⟩
    have hrun : c.session.watch.Attends (diary ++ []) := Course.attends_run hfresh hstart
    rwa [List.append_nil] at hrun
  refine ⟨?_, ?_, ?_, ?_⟩
  · intro hin hrunning hwatches hnotified
    have harmed : c.session.watch.Armed := by
      refine Course.armed_run hfresh ⟨fun _ ↦ rfl, ?_⟩ hin
      intro hidle
      cases hidle
    have hstate : c.session.phase.state = .running := of_decide_eq_true hrunning
    exact Option.isSome_iff_ne_none.2 (harmed.running hstate hwatches hnotified)
  · intro m
    have hannounce : c.session.watch.announcement =
        if c.session.options.monitorActivity ∧ isFresh diary then [.activity] else [] := by
      unfold Watch.announcement
      cases hactivity : c.session.options.monitorActivity with
      | false => simp [watch, hactivity]
      | true =>
        rw [hattends.marked hactivity]
        simp [watch, hactivity]
    rw [(Course.shift hc m m.eq_time).told_eq, ← hannounce]
    rfl
  · intro a hheard
    obtain ⟨d, hd, hdue⟩ := Course.due_of_heard hheard
    refine ⟨hattends.renewed ?_, ?_⟩
    · show c.session.countdown? ≠ none
      rw [hd]
      exact Option.some_ne_none d
    · intro hin hclock hsilence t ht
      have hstart : start.session.watch.Punctual [] 0 := by
        refine ⟨?_, ?_⟩
        · intro t ht
          cases ht
        · intro _ d hd
          cases hd
      obtain ⟨now, hpunctual⟩ := Course.punctual_run hfresh hstart hin
        (List.pairwise_cons.2 ⟨fun t _ ↦ Nat.zero_le t, hclock⟩)
      rw [List.append_nil] at hpunctual
      exact Nat.le_trans (hpunctual.due hsilence d hd t ht) hdue
  · intro m
    exact Course.overflows_iff hc

/-- Output is announced once, silence is told when the countdown ends, and it would be told too
early if the countdown were to start with a span that reaches beyond the clock. -/
theorem output_watched_silence :
    let options : SessionOptions :=
      { monitorActivity := true, monitorSilence := true, silenceTimeout := 300 }
    let moves : List Move :=
      [.run "sh" { now := 5 }, .process, .happen (.output [104]) { now := 100 }, .process,
        .happen (.output [105]) { now := 200 }, .process]
    let elapsed := Move.happen .silence { now := 500 }
    let start := Course.start (.new 1 options Emulation.Discard.mk)
    let c := start.run moves
    (start.staysInTime moves = true ∧ (moves.filterMap Move.time?).Pairwise (· ≤ ·)) ∧
      start.diary moves = [.dispatched 200, .dispatched 100, .started] ∧
      signs (c.advance elapsed).trace = [.silence] ∧ 200 + c.session.options.silenceTimeout ≤ 500 ∧
      c.overflows (.setSilenceTimeout (Clock.latest + 1) 500) = true := by
  intro options moves elapsed
  have hin : (Course.start (.new 1 options Emulation.Discard.mk)).staysInTime moves = true := by
    decide
  have hclock : (moves.filterMap Move.time?).Pairwise (· ≤ ·) := by decide
  obtain ⟨-, htold, hquiet, hbeyond⟩ := output_watched 1 options Emulation.Discard.mk moves
  refine ⟨⟨hin, hclock⟩, by decide, ?_, ?_, ?_⟩
  · exact (htold elapsed).trans (by decide)
  · exact (hquiet { now := 500 } (by decide)).2 hin hclock (by decide) 200 (by decide)
  · exact (hbeyond _).2 (by decide)

end PtyHost.Session

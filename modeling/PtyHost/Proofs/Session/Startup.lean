import PtyHost.Session.Start

/-!
# How far an attempt to start a program comes

An attempt stops at the first step that fails, and what has been done until then is all that was
done.

Main statement: `ended_startup`.
-/

namespace PtyHost.Session

variable {ε : Type}

/-- What is done between the grant and the start of the program. -/
def preparations (size : WindowSize) (line : Pty.LineSettings) : List Effect :=
  [.sizedWindow size, .openedSlave, .configuredLine line]

/-- Whether an effect is part of an attempt to start a program. -/
def isOpening : Effect → Bool
  | .openedMaster | .requested .grant _ | .sizedWindow _ | .openedSlave | .configuredLine _
  | .spawned _ => true
  | _ => false

namespace Startup

/-- How an attempt ends that begins with a closed device and without a grant. -/
inductive Ended (size : WindowSize) (line : Pty.LineSettings) : Startup Pid → Prop
  | unopened (e : SessionError) : Ended size line ⟨.closed, false, [], .error e⟩
  | refused (slave : Path) (e : SessionError) :
      Ended size line
        ⟨.opened slave false, false, [.openedMaster, .requested .grant false], .error e⟩
  | unprepared (slave : Path) (taken : Bool) (e : SessionError) {done : List Effect}
      (h : done <+: preparations size line) :
      Ended size line
        ⟨.opened slave taken, true, .openedMaster :: .requested .grant true :: done, .error e⟩
  | spawned (slave : Path) (pid : Pid) :
      Ended size line
        ⟨.opened slave true, true,
          .openedMaster :: .requested .grant true :: (preparations size line ++ [.spawned pid]),
          .ok pid⟩

/-- An attempt that has failed takes no more steps. -/
theorem run_failed (steps : List (Startup Unit → Startup Unit)) (device : Pty.Device)
    (granted : Bool) (trace : List Effect) (e : SessionError) :
    run steps ⟨device, granted, trace, .error e⟩ = ⟨device, granted, trace, .error e⟩ := by
  induction steps with
  | nil => rfl
  | cons step steps ih => exact ih

/-- An attempt that has failed does not come to the last step. -/
theorem spawn_failed (program : String) (a : Answers) (device : Pty.Device) (granted : Bool)
    (trace : List Effect) (e : SessionError) :
    spawn program a ⟨device, granted, trace, .error e⟩ = ⟨device, granted, trace, .error e⟩ := rfl

/-- An attempt that has not failed takes the next step. -/
theorem run_going (step : Startup Unit → Startup Unit) (steps : List (Startup Unit → Startup Unit))
    (device : Pty.Device) (granted : Bool) (trace : List Effect) :
    run (step :: steps) ⟨device, granted, trace, .ok ()⟩ =
      run steps (step ⟨device, granted, trace, .ok ()⟩) := rfl

/-- Steps may be taken in two parts. -/
theorem run_append (first rest : List (Startup Unit → Startup Unit)) (u : Startup Unit) :
    run (first ++ rest) u = run rest (run first u) := List.foldl_append

/-- What every step keeps is so when all have been taken. -/
theorem invariant_run {P : Startup Unit → Prop} {steps : List (Startup Unit → Startup Unit)}
    {u : Startup Unit} (hsteps : ∀ step ∈ steps, ∀ v, P v → P (step v)) (hu : P u) :
    P (run steps u) := by
  induction steps generalizing u with
  | nil => exact hu
  | cons step steps ih =>
    refine ih (fun f hf ↦ hsteps f (List.mem_cons_of_mem _ hf)) ?_
    dsimp only
    split
    · exact hsteps step List.mem_cons_self u hu
    · exact hu

/-- A step adds to the trace only what is part of an attempt. -/
theorem isOpening_step {size : WindowSize} {line : Pty.LineSettings} {a : Answers}
    {step : Startup Unit → Startup Unit} (hstep : step ∈ steps size line a) {u : Startup Unit}
    (hu : ∀ e ∈ u.trace, isOpening e = true) : ∀ e ∈ (step u).trace, isOpening e = true := by
  have hnote (d : Pty.Device) (g : Bool) (r : Except SessionError Unit) (e : Effect)
      (he : isOpening e = true) :
      ∀ x ∈ ((⟨d, g, u.trace, r⟩ : Startup Unit).note e).trace, isOpening x = true := by
    simpa [note, or_imp, forall_and, he] using hu
  simp only [steps, List.mem_cons, List.not_mem_nil, or_false] at hstep
  rcases hstep with rfl | rfl | rfl | rfl | rfl | rfl
  · unfold openMaster
    split
    · exact hnote _ _ _ _ rfl
    · exact hu
  · unfold requestGrant
    split <;> exact hnote _ _ _ _ rfl
  · unfold setWindowSize
    split
    · exact hnote _ _ _ _ rfl
    · exact hu
  · unfold openSlave
    split
    · exact hnote _ _ _ _ rfl
    · exact hu
  · unfold configureLine
    split
    · exact hnote _ _ _ _ rfl
    · exact hu
  · unfold duplicate
    split <;> exact hu

/-- The last step adds to the trace that the program was started, if anything. -/
theorem isOpening_spawn (program : String) (a : Answers) {u : Startup Unit}
    (hu : ∀ e ∈ u.trace, isOpening e = true) :
    ∀ e ∈ (u.spawn program a).trace, isOpening e = true := by
  unfold spawn
  split
  · exact hu
  · simpa [or_imp, forall_and, isOpening] using hu
  · exact hu

/-- Whether an attempt that has not failed has a terminal whose slave is granted. -/
def Holds {α : Type} (u : Startup α) : Prop :=
  ∀ x, u.result = .ok x → u.device.isOpen = true ∧ u.granted = true

/-- An attempt that has failed has nothing to hold. -/
theorem Holds.fail (u : Startup Unit) (e : SessionError) : (u.fail e).Holds := by
  intro x h
  cases h

/-- A terminal is opened and granted in the first two steps, and not if there is one already. -/
theorem Holds.granted (device : Pty.Device) (granted : Bool) (a : Answers) :
    (run [openMaster a, requestGrant a] ⟨device, granted, [], .ok ()⟩).Holds := by
  rw [run_going, openMaster]
  cases device with
  | opened slave taken => exact .fail _ _
  | closed =>
    rcases a.openMaster with e | slave
    · exact .fail _ _
    simp only [Pty.Device.openMaster, note, run_going, requestGrant]
    rcases a.grant with e | -
    · exact .fail _ _
    · exact fun _ _ ↦ ⟨rfl, rfl⟩

/-- The steps after that leave the terminal open and granted. -/
theorem Holds.step {size : WindowSize} {line : Pty.LineSettings} {a : Answers}
    {step : Startup Unit → Startup Unit} (hstep : step ∈ (steps size line a).drop 2)
    {u : Startup Unit} (hu : u.Holds) : (step u).Holds := by
  simp only [steps, List.drop_succ_cons, List.drop_zero, List.mem_cons, List.not_mem_nil,
    or_false] at hstep
  rcases hstep with rfl | rfl | rfl | rfl
  · unfold setWindowSize
    split
    · exact hu
    · exact .fail u _
  · unfold openSlave
    split
    · next device hdevice =>
      obtain ⟨slave, -, -, rfl⟩ := Pty.Device.openSlave_eq_ok_iff.1 hdevice
      exact fun x h ↦ ⟨rfl, (hu x h).2⟩
    · exact .fail u _
  · unfold configureLine
    split
    · exact hu
    · exact .fail u _
  · unfold duplicate
    split
    · exact hu
    · exact .fail u _

/-- The last step leaves the terminal open and granted too. -/
theorem Holds.spawn (program : String) (a : Answers) {u : Startup Unit} (hu : u.Holds) :
    (u.spawn program a).Holds := by
  intro pid h
  unfold Startup.spawn at h ⊢
  split at h
  · cases h
  · next hgoing _ => exact hu () hgoing
  · cases h

end Startup

/-- All that an attempt does is part of it. -/
theorem isOpening_startup (s : Session ε) (program : String) (a : Answers) :
    ∀ e ∈ (s.startup program a).trace, isOpening e = true :=
  Startup.isOpening_spawn program a
    (Startup.invariant_run (P := fun u ↦ ∀ e ∈ u.trace, isOpening e = true)
      (fun _ hstep _ hu ↦ Startup.isOpening_step hstep hu) (by simp))

/-- How the attempt of a session ends that has no device open and no grant. -/
theorem ended_startup {s : Session ε} (program : String) (a : Answers)
    (hdevice : s.device = .closed) (hgranted : s.granted = false) :
    Startup.Ended s.size s.options.line (s.startup program a) := by
  unfold startup Startup.steps
  simp only [hdevice, hgranted, Startup.run_going, Startup.openMaster]
  rcases a.openMaster with e | slave
  · simp only [Pty.Device.openMaster, Startup.fail, Startup.run_failed, Startup.spawn_failed]
    exact .unopened e.error
  simp only [Pty.Device.openMaster, Startup.note, Startup.run_going, Startup.requestGrant]
  rcases a.grant with e | -
  · simp only [Startup.fail, Startup.run_failed, Startup.spawn_failed]
    exact .refused slave e
  simp only [Startup.note, Startup.run_going, Startup.setWindowSize]
  rcases a.setWindowSize with e | -
  · simp only [Pty.Device.request, Startup.fail, Startup.run_failed, Startup.spawn_failed]
    exact .unprepared slave false _ List.nil_prefix
  simp only [Pty.Device.request, Startup.note, Startup.run_going, Startup.openSlave]
  rcases a.openSlave with e | -
  · simp only [Pty.Device.openSlave, Startup.fail, Startup.run_failed, Startup.spawn_failed]
    exact .unprepared slave false _ ⟨[.openedSlave, .configuredLine s.options.line], rfl⟩
  simp only [Pty.Device.openSlave, Startup.note, Startup.run_going, Startup.configureLine]
  rcases a.configureLine with e | -
  · simp only [Startup.fail, Startup.run_failed, Startup.spawn_failed]
    exact .unprepared slave true _ ⟨[.configuredLine s.options.line], rfl⟩
  simp only [Startup.run_going, Startup.duplicate]
  rcases a.duplicate with e | -
  · simp only [Pty.Device.request, Startup.fail, Startup.run_failed, Startup.spawn_failed]
    exact .unprepared slave true _ (List.prefix_refl _)
  simp only [Pty.Device.request, Startup.spawn]
  rcases a.spawn with e | pid
  · exact .unprepared slave true _ (List.prefix_refl _)
  · exact .spawned slave pid

/-- An attempt that no step has failed leaves a terminal whose slave is granted, also if there was
something left of an earlier one. -/
theorem holds_startup {s : Session ε} {program : String} {a : Answers} {pid : Pid}
    (h : (s.startup program a).result = .ok pid) :
    (s.startup program a).device.isOpen = true ∧ (s.startup program a).granted = true := by
  have hholds : (s.startup program a).Holds := by
    unfold startup
    rw [← List.take_append_drop 2 (Startup.steps _ _ _), Startup.run_append]
    exact .spawn program a
      (Startup.invariant_run (fun _ hstep _ hu ↦ .step hstep hu) (.granted s.device s.granted a))
  exact hholds pid h

/-- An attempt that no step has failed has done all that is to be done. -/
theorem startup_of_result_eq_ok {s : Session ε} {program : String} {a : Answers} {pid : Pid}
    (hdevice : s.device = .closed) (hgranted : s.granted = false)
    (h : (s.startup program a).result = .ok pid) :
    ∃ slave, s.startup program a =
      ⟨.opened slave true, true,
        .openedMaster :: .requested .grant true ::
          (preparations s.size s.options.line ++ [.spawned pid]), .ok pid⟩ := by
  have hended := ended_startup program a hdevice hgranted
  revert hended h
  generalize s.startup program a = u
  intro h hended
  cases hended with
  | unopened | refused | unprepared => cases h
  | spawned slave =>
    cases h
    exact ⟨slave, rfl⟩

end PtyHost.Session

import PtyHost.Session.Output

/-!
# Operations on a session

What the owner of a session can do at once, without waiting for the program.
-/

namespace PtyHost.Session

variable {ε : Type}

/-- Queues input for the program. -/
def send (s : Session ε) (data : Bytes) : Outcome ε Unit :=
  match s.current? with
  | some _ => (if data = [] then ⟨s, []⟩ else s.enqueue data).ending (.done ())
  | none => { session := s, verdict := .failed .notRunning }

/-- Changes the window size. The session has the new size even if the terminal refuses it. -/
def resize [Emulation ε] (s : Session ε) (size : WindowSize) (a : Answers) : Outcome ε Unit :=
  match s.current? with
  | some _ =>
    match s.device.request a.setWindowSize with
    | .ok () =>
      { session := { s with size, emulation := Emulation.resized s.emulation size }
        trace := [.sizedWindow size]
        verdict := .done () }
    | .error e => { session := { s with size }, verdict := .failed e }
  | none => { session := s, verdict := .failed .notRunning }

/-- Sends a signal to the program's process group. -/
def signal (s : Session ε) (sig : Signal) (a : Answers) : Outcome ε Unit :=
  match s.current? with
  | some r =>
    { session := s
      trace := [.signalled r.child.pid sig]
      verdict :=
        match a.deliver with
        | .ok () => .done ()
        | .error e => .failed (.device e) }
  | none => { session := s, verdict := .failed .notRunning }

/-- Sends the signal with a number. -/
def sendSignal (s : Session ε) (number : Int) (a : Answers) : Outcome ε Unit :=
  match Signal.ofNumber? number with
  | some sig => s.signal sig a
  | none => { session := s, verdict := .failed (.invalidSignal number) }

/-- Forwards a toggle of scroll lock to the emulation. -/
def setScrollLock [Emulation ε] (s : Session ε) (locked : Bool) : Traced ε :=
  { s with emulation := Emulation.scrollLock s.emulation locked }.takeEvents

/-- Turns activity monitoring on or off. The next output is announced again. -/
def setMonitorActivity (s : Session ε) (monitor : Bool) : Session ε :=
  { s with options := { s.options with monitorActivity := monitor }, notified := false }

/-- Starts the silence countdown, or lets the clock overflow. -/
def rearmed (s : Session ε) (now : Nat) : Outcome ε Unit :=
  match s.armSilence now with
  | some armed => { session := armed, verdict := .done () }
  | none => { session := s, verdict := .overflow }

/-- Turns silence monitoring on or off. Turning it on starts the countdown; turning it off stops
it, unless activity monitoring still needs it. -/
def setMonitorSilence (s : Session ε) (monitor : Bool) (now : Nat) : Outcome ε Unit :=
  if s.options.monitorSilence = monitor then { session := s, verdict := .done () }
  else
    let s := { s with options := { s.options with monitorSilence := monitor } }
    if monitor then s.rearmed now
    else if s.options.monitorActivity then { session := s, verdict := .done () }
    else { session := s.modifyRunning fun r ↦ { r with silenceAt := none }, verdict := .done () }

/-- Changes the time that counts as silence. A countdown that is watched starts over. -/
def setSilenceTimeout (s : Session ε) (span : Nat) (now : Nat) : Outcome ε Unit :=
  let s := { s with options := { s.options with silenceTimeout := span } }
  if s.options.monitorSilence then s.rearmed now else { session := s, verdict := .done () }

/-- Allows or forbids messages of other users on the terminal. -/
def setWriteable (s : Session ε) (allowed : Bool) (a : Answers) : Outcome ε Unit :=
  match s.current? with
  | some _ =>
    match s.device.request a.setMessages with
    | .ok () => { session := s, trace := [.setMessages allowed], verdict := .done () }
    | .error e => { session := s, verdict := .failed e }
  | none => { session := s, verdict := .failed .notRunning }

/-- Renames the session. -/
def setTitle (s : Session ε) (title : String) : Traced ε := s.setUserTitle 30 title

/-- Sets the text of the icon. -/
def setIconText (s : Session ε) (text : String) : Traced ε := s.setUserTitle 1 text

/-- Sets the name of the icon. -/
def setIconName (s : Session ε) (name : String) : Traced ε := s.setUserTitle 32 name

/-- Sets the keymap. -/
def setKeymap (s : Session ε) (keymap : String) : Session ε := { s with keymap }

end PtyHost.Session

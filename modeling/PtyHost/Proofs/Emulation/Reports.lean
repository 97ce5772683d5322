import PtyHost.Proofs.Emulation.Blocks
import PtyHost.Proofs.Text.Utf8

/-!
# What output can make a title tracker report

Output comes from a program that need not be trusted. Whatever it is, and however it is cut, all
that it is reported to ask for is the one answer to a status report, a title of a known kind in
which there is no control character, another window size and a bell. This holds because a command
being read keeps no control character, and so none is in its fields.

Main statements: `TitleTracker.isTame_of_mem_told` and `TitleTracker.locks_told`, by which the
changes of scroll lock are reported too, and only as the owner makes them.
-/

namespace PtyHost

namespace Escape

/-- Whether there are no control characters in some bytes. -/
def IsPrinted (bytes : Bytes) : Prop := ∀ b ∈ bytes, 0x20 ≤ b.toNat

/-- Whether a command that is being read holds no control character. -/
def State.IsClean : State → Prop
  | .command collected => IsPrinted collected
  | _ => True

/-- Whether no field of a command holds a control character. -/
def Token.IsClean : Token → Prop
  | .command fields => ∀ f ∈ fields, IsPrinted f
  | _ => True

variable {s : State}

/-- The fields of a command are made of the bytes that were collected. -/
theorem isClean_closeCommand {collected : Bytes} (h : IsPrinted collected) :
    (closeCommand collected).IsClean := by
  intro f hf b hb
  have hcollected : b ∈ collected.reverse := Bytes.mem_of_mem_fields (List.mem_of_mem_take hf) hb
  exact h b (List.mem_reverse.1 hcollected)

/-- A byte of a command leaves it clean, and so is the command that it ends. -/
theorem isClean_step_command {collected : Bytes} (h : IsPrinted collected) (b : UInt8) :
    (step (.command collected) b).1.IsClean ∧
      ∀ token ∈ (step (.command collected) b).2, token.IsClean := by
  have hclose : (closeCommand collected).IsClean := isClean_closeCommand h
  by_cases hbel : b = bel
  · rw [hbel, documented.command_bel]
    exact ⟨trivial, by simpa using hclose⟩
  by_cases hesc : b = esc
  · rw [hesc, documented.command_esc]
    exact ⟨trivial, by simpa using hclose⟩
  cases hcancel : isCancel b with
  | true =>
    rw [documented.command_cancel collected hcancel]
    exact ⟨trivial, by simpa using ⟨hclose, trivial⟩⟩
  | false =>
    have hheld : isHeld b = true := by simp [isHeld, hbel, hesc, hcancel]
    rw [documented.command_held collected hheld]
    refine ⟨?_, by simp⟩
    split
    · exact h
    · next hcontrol =>
      rw [UInt8.lt_iff_toNat_lt, Nat.not_lt] at hcontrol
      exact List.forall_mem_cons.2 ⟨hcontrol, h⟩

/-- Outside of commands, a byte leaves no command but an empty one, and ends none. -/
theorem isClean_step_of_ne (hs : ∀ collected, s ≠ .command collected) (b : UInt8) :
    (step s b).1.IsClean ∧ ∀ token ∈ (step s b).2, token.IsClean := by
  obtain ⟨hopened, hnone⟩ := documented.no_command hs b
  constructor
  · cases hnext : (step s b).1 with
    | command collected =>
      rw [hopened collected hnext]
      exact List.forall_mem_nil _
    | _ => trivial
  · intro token htoken
    cases token with
    | command fields => exact absurd htoken (hnone fields)
    | _ => trivial

/-- A byte leaves a clean command clean, and so are the tokens that it ends. -/
theorem isClean_step (h : s.IsClean) (b : UInt8) :
    (step s b).1.IsClean ∧ ∀ token ∈ (step s b).2, token.IsClean := by
  cases s with
  | command collected => exact isClean_step_command h b
  | _ => exact isClean_step_of_ne (by simp) b

/-- Bytes leave a clean command clean, and so are the tokens in them. -/
theorem isClean_run (h : s.IsClean) (bytes : Bytes) :
    (run s bytes).1.IsClean ∧ ∀ token ∈ (run s bytes).2, token.IsClean := by
  induction bytes generalizing s with
  | nil => exact ⟨h, by simp [run]⟩
  | cons b bytes ih =>
    obtain ⟨hnext, hfound⟩ := isClean_step h b
    obtain ⟨hlast, hrest⟩ := ih hnext
    refine ⟨hlast, ?_⟩
    intro token htoken
    rcases List.mem_append.1 htoken with hfirst | hlater
    · exact hfound token hfirst
    · exact hrest token hlater

end Escape

namespace Emulation

/-- Whether an event is one that output may lead to: the answer to a status report, a title of a
known kind without control characters, another window size, or a bell. -/
def Event.isTame : Event → Bool
  | .write data => data = statusAnswer
  | .userTitle what caption => what ∈ titleKinds && caption.toList.all fun c ↦ 0x20 ≤ c.toNat
  | .sizeRequest _ | .bell => true
  | .lock _ => false

/-- Whether an event holds the output back or lets it go. -/
def Event.isLock : Event → Bool
  | .lock _ => true
  | _ => false

/-- What output may lead to is not to hold it back. -/
theorem Event.isLock_of_isTame {event : Event} (h : event.isTame = true) :
    event.isLock = false := by
  cases event with
  | lock => cases h
  | _ => rfl

/-- The characters of a caption are those of its fields, and semicolons. -/
theorem mem_caption {fields : List Bytes} {c : Char} (h : c ∈ (caption fields).toList) :
    c = ';' ∨ ∃ f ∈ fields, c ∈ (Utf8.decodeLossy f).toList := by
  unfold caption at h
  induction fields with
  | nil => simp at h
  | cons f fields ih =>
    cases fields with
    | nil => exact .inr ⟨f, List.mem_singleton_self f, by simpa using h⟩
    | cons g fields =>
      rw [List.map_cons, List.map_cons, String.intercalate_cons_cons, ← List.map_cons,
        String.toList_append, String.toList_append, List.mem_append, List.mem_append] at h
      rcases h with (hf | hsep) | hrest
      · exact .inr ⟨f, List.mem_cons_self, hf⟩
      · exact .inl (List.mem_singleton.1 hsep)
      · refine (ih hrest).imp_right ?_
        rintro ⟨f, hf, hc⟩
        exact ⟨f, List.mem_cons_of_mem _ hf, hc⟩

/-- There is no control character in the caption of a clean command. -/
theorem le_of_mem_caption {fields : List Bytes} (h : ∀ f ∈ fields, Escape.IsPrinted f) :
    ∀ c ∈ (caption fields).toList, 0x20 ≤ c.toNat := by
  intro c hc
  rcases mem_caption hc with rfl | ⟨f, hf, hc⟩
  · decide
  · rw [← Nat.not_lt]
    intro hcontrol
    have hascii : c.toNat < 0x80 := by omega
    have hbyte := h f hf _ (Utf8.mem_of_mem_decodeLossy hc hascii)
    rw [Utf8.toNat_ofNat_of_le (by omega)] at hbyte
    exact absurd hbyte (Nat.not_le.2 hcontrol)

/-- The title that a clean command reports is tame. -/
theorem isTame_of_ofCommand {fields : List Bytes} {event : Event}
    (h : ∀ f ∈ fields, Escape.IsPrinted f) (hevent : ofCommand fields = some event) :
    event.isTame = true := by
  unfold ofCommand at hevent
  split at hevent
  · next what field rest =>
    have hcaption := le_of_mem_caption fun f hf ↦ h f (List.mem_cons_of_mem what hf)
    obtain ⟨text, -, hevent⟩ := Option.bind_eq_some_iff.1 hevent
    obtain ⟨kind, -, hevent⟩ := Option.bind_eq_some_iff.1 hevent
    obtain ⟨_, hguard, hevent⟩ := Option.bind_eq_some_iff.1 hevent
    by_cases hkind : kind ∈ titleKinds
    · cases hevent
      simpa [Event.isTame, hkind] using hcaption
    · have hnone : (guard (kind ∈ titleKinds) : Option Unit) = none := if_neg hkind
      rw [hnone] at hguard
      cases hguard
  · cases hevent

/-- All that a control sequence reports is tame. -/
theorem isTame_of_ofSequence {sequence : Escape.ControlSequence} {event : Event}
    (h : ofSequence sequence = some event) : event.isTame = true := by
  unfold ofSequence at h
  repeat' split at h
  all_goals cases h
  all_goals rfl

/-- What a clean token reports is tame. -/
theorem isTame_of_ofToken {token : Escape.Token} {event : Event} (h : token.IsClean)
    (hevent : ofToken token = some event) : event.isTame = true := by
  cases token with
  | control code =>
    rw [ofToken] at hevent
    split at hevent
    · cases hevent
      rfl
    · cases hevent
  | command fields => exact isTame_of_ofCommand h hevent
  | sequence s => exact isTame_of_ofSequence hevent

/-- Whatever the output is, all that it reports is tame, unless it goes on with a command in which
there is a control character already. -/
theorem isTame_of_mem_reports {s : Escape.State} (h : s.IsClean) (bytes : Bytes) :
    ∀ event ∈ reports s bytes, event.isTame = true := by
  intro event hevent
  obtain ⟨token, htoken, hreports⟩ := List.mem_filterMap.1 hevent
  exact isTame_of_ofToken ((Escape.isClean_run h bytes).2 token htoken) hreports

/-- The events that change what scroll lock holds, when it is set some times. -/
def toggles (held : Bool) : List Use → List Event
  | [] => []
  | .scrollLock locked :: uses =>
    (if held = locked then [] else [.lock locked]) ++ toggles locked uses
  | _ :: uses => toggles held uses

/-- Changes of scroll lock hold the output back or let it go. -/
theorem isLock_of_mem_toggles {held : Bool} {uses : List Use} :
    ∀ event ∈ toggles held uses, event.isLock = true := by
  induction uses generalizing held with
  | nil => simp [toggles]
  | cons u uses ih =>
    cases u with
    | scrollLock locked =>
      intro event hevent
      rcases List.mem_append.1 hevent with hfirst | hrest
      · split at hfirst
        · cases hfirst
        · obtain rfl := List.mem_singleton.1 hfirst
          rfl
      · exact ih event hrest
    | _ => exact ih

namespace TitleTracker

variable {t : TitleTracker}

/-- All that a tracker has reported after some uses, whether it was handed out or not. -/
def told (t : TitleTracker) (uses : List Use) : List Event :=
  (t.run uses).1 ++ (t.run uses).2.reported.reverse

/-- What is reported in a use: what the part of a block that is heeded reports, and the change of
scroll lock. -/
theorem told_use (t : TitleTracker) (u : Use) :
    (t.use u).1 ++ (t.use u).2.reported.reverse =
      t.reported.reverse ++
        (reports t.parser (Escape.heeded t.parser u.block) ++ toggles t.held [u]) := by
  cases u with
  | receive block =>
    show (t.receive block).reported.reverse = _ ++ (_ ++ [])
    rw [receive_eq, List.reverse_append, List.reverse_reverse, List.append_nil]
    rfl
  | take =>
    rw [show Use.take.block = [] from rfl, Escape.heeded_nil]
    rfl
  | resize size =>
    rw [show (Use.resize size).block = [] from rfl, Escape.heeded_nil]
    exact (List.append_nil _).symm
  | scrollLock locked =>
    rw [show (Use.scrollLock locked).block = [] from rfl, Escape.heeded_nil]
    show (t.scrollLock locked).reported.reverse = _ ++ ([] ++ ((if _ then [] else [_]) ++ []))
    unfold TitleTracker.scrollLock
    split
    · rw [List.append_nil, List.append_nil, List.append_nil]
    · rw [List.reverse_cons, List.nil_append, List.append_nil]

/-- Where the parser is behind a use. -/
theorem parser_use (t : TitleTracker) (u : Use) :
    (t.use u).2.parser = (Escape.run t.parser (Escape.heeded t.parser u.block)).1 := by
  cases u with
  | receive block =>
    show (t.receive block).parser = _
    rw [receive_eq]
    rfl
  | take =>
    rw [show Use.take.block = [] from rfl, Escape.heeded_nil]
    rfl
  | resize size =>
    rw [show (Use.resize size).block = [] from rfl, Escape.heeded_nil]
    rfl
  | scrollLock locked =>
    rw [show (Use.scrollLock locked).block = [] from rfl, Escape.heeded_nil]
    show (t.scrollLock locked).parser = t.parser
    unfold TitleTracker.scrollLock
    split
    · rfl
    · rfl

/-- The changes of scroll lock are those of the first use and those behind it. -/
theorem toggles_cons (t : TitleTracker) (u : Use) (uses : List Use) :
    toggles t.held (u :: uses) = toggles t.held [u] ++ toggles (t.use u).2.held uses := by
  cases u with
  | receive block =>
    have hheld : (t.receive block).held = t.held := by rw [receive_eq]
    show toggles t.held uses = toggles (t.receive block).held uses
    rw [hheld]
  | take => rfl
  | resize => rfl
  | scrollLock locked =>
    have hheld : (t.scrollLock locked).held = locked := by
      unfold TitleTracker.scrollLock
      split
      · next hsame => exact hsame
      · rfl
    show _ ++ _ = (_ ++ []) ++ toggles (t.scrollLock locked).held uses
    rw [hheld, List.append_nil]

/-- All that is reported behind the first use. -/
theorem told_cons (t : TitleTracker) (u : Use) (uses : List Use) :
    t.told (u :: uses) = (t.use u).1 ++ (t.use u).2.told uses := List.append_assoc ..

/-- What is reported in a use, the changes of scroll lock apart from all else. -/
theorem locks_use (h : t.parser.IsClean) (u : Use) :
    ((t.use u).1 ++ (t.use u).2.reported.reverse).filter Event.isLock =
        t.reported.reverse.filter Event.isLock ++ toggles t.held [u] ∧
      ((t.use u).1 ++ (t.use u).2.reported.reverse).filter (!Event.isLock ·) =
        t.reported.reverse.filter (!Event.isLock ·) ++
          reports t.parser (Escape.heeded t.parser u.block) := by
  have hreports : ∀ event ∈ reports t.parser (Escape.heeded t.parser u.block),
      event.isLock = false :=
    fun event hevent ↦ Event.isLock_of_isTame (isTame_of_mem_reports h _ event hevent)
  have hnone : (reports t.parser (Escape.heeded t.parser u.block)).filter Event.isLock = [] :=
    List.filter_eq_nil_iff.2 (by simpa using hreports)
  have hall : (reports t.parser (Escape.heeded t.parser u.block)).filter (!Event.isLock ·) =
      reports t.parser (Escape.heeded t.parser u.block) :=
    List.filter_eq_self.2 (by simpa using hreports)
  have hlocks : (toggles t.held [u]).filter Event.isLock = toggles t.held [u] :=
    List.filter_eq_self.2 isLock_of_mem_toggles
  have hothers : (toggles t.held [u]).filter (!Event.isLock ·) = [] :=
    List.filter_eq_nil_iff.2 (by simpa using isLock_of_mem_toggles)
  simp only [told_use, List.filter_append, hnone, hall, hlocks, hothers, List.nil_append,
    List.append_nil, and_self]

/-- Each change of scroll lock is reported once, and all else that is reported is what the output
reports. -/
theorem locks_told (h : t.parser.IsClean) (uses : List Use) :
    (t.told uses).filter Event.isLock =
        t.reported.reverse.filter Event.isLock ++ toggles t.held uses ∧
      (t.told uses).filter (!Event.isLock ·) =
        t.reported.reverse.filter (!Event.isLock ·) ++ reports t.parser (t.heard uses) := by
  induction uses generalizing t with
  | nil => exact ⟨(List.append_nil _).symm, (List.append_nil _).symm⟩
  | cons u uses ih =>
    have hnext : (t.use u).2.parser.IsClean := by
      rw [parser_use]
      exact (Escape.isClean_run h _).1
    obtain ⟨hfirst, hfirst'⟩ := locks_use h u
    obtain ⟨hrest, hrest'⟩ := ih hnext
    refine ⟨?_, ?_⟩
    · rw [told_cons, List.filter_append, hrest, ← List.append_assoc, ← List.filter_append, hfirst,
        List.append_assoc, ← toggles_cons]
    · rw [told_cons, List.filter_append, hrest', ← List.append_assoc, ← List.filter_append, hfirst',
        List.append_assoc, parser_use, ← reports_append]
      rfl

/-- All that a tracker is told is what it was before, what the output reports, and the changes of
scroll lock. -/
theorem isTame_of_mem_told (h : t.parser.IsClean) {uses : List Use} {event : Event}
    (hevent : event ∈ t.told uses) :
    event ∈ t.reported ∨ event.isTame = true ∨ event ∈ toggles t.held uses := by
  obtain ⟨hlocks, hothers⟩ := locks_told h uses
  cases hlock : event.isLock with
  | true =>
    have hmem : event ∈ (t.told uses).filter Event.isLock := List.mem_filter.2 ⟨hevent, hlock⟩
    rw [hlocks, List.mem_append, List.mem_filter, List.mem_reverse] at hmem
    rcases hmem with hbefore | htoggled
    · exact .inl hbefore.1
    · exact .inr (.inr htoggled)
  | false =>
    have hmem : event ∈ (t.told uses).filter (!Event.isLock ·) :=
      List.mem_filter.2 ⟨hevent, by rw [hlock]; rfl⟩
    rw [hothers, List.mem_append, List.mem_filter, List.mem_reverse] at hmem
    rcases hmem with hbefore | hreported
    · exact .inl hbefore.1
    · exact .inr (.inl (isTame_of_mem_reports h _ event hreported))

end TitleTracker

end Emulation

end PtyHost

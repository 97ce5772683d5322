import Mathlib.Data.Bool.AllAny
import PtyHost.Proofs.Emulation.Enclosed
import PtyHost.Proofs.Text.Numeral

/-!
# Titles and their captions

A title is a command whose first field is the number of a kind of title. What stands behind this
field is the caption, semicolons and all, but for two things: control characters in a command count
as if they were not there, and of a caption with too many semicolons the end is missing. The parser
cuts a caption at its semicolons and each piece is decoded by itself; this is no different from
decoding the caption as a whole, since an ASCII byte is never a part of a longer character.

Main statement: `TitleTracker.titles_recognised`.
-/

namespace PtyHost

namespace Bytes

/-- Whether a byte string is what stands in another in front of a separator with `n` others before
it, or all of the other where there are not so many. -/
def Cut (sep : UInt8) (n : Nat) (whole kept : Bytes) : Prop :=
  (kept = whole ∧ whole.count sep ≤ n) ∨
    (kept.count sep = n ∧ ∃ dropped, whole = kept ++ sep :: dropped)

variable {sep : UInt8} {n : Nat}

/-- The first of some pieces, joined, are cut at a separator. -/
theorem cut_joined {pieces : List Bytes} (hne : pieces ≠ []) (h : ∀ f ∈ pieces, sep ∉ f) :
    Cut sep n (joined sep pieces) (joined sep (pieces.take (n + 1))) := by
  fun_induction joined sep pieces generalizing n with
  | case1 => exact absurd rfl hne
  | case2 f =>
    have hnone : f.count sep = 0 := List.count_eq_zero_of_not_mem (h f (List.mem_singleton_self f))
    exact .inl ⟨by simp [joined], by omega⟩
  | case3 f g rest ih =>
    rw [List.forall_mem_cons] at h
    have hnone : f.count sep = 0 := List.count_eq_zero_of_not_mem h.1
    cases n with
    | zero => exact .inr ⟨by simpa [joined] using hnone, joined sep (g :: rest), by simp [joined]⟩
    | succ n =>
      have hkept : joined sep ((f :: g :: rest).take (n + 1 + 1)) =
          f ++ sep :: joined sep ((g :: rest).take (n + 1)) := rfl
      rw [hkept]
      rcases ih (n := n) (by simp) h.2 with ⟨hsame, hcount⟩ | ⟨hcount, dropped, hdropped⟩
      · rw [hsame]
        refine .inl ⟨rfl, ?_⟩
        rw [List.count_append, List.count_cons_self]
        omega
      · refine .inr ⟨?_, dropped, by rw [hdropped]; simp⟩
        rw [List.count_append, List.count_cons_self]
        omega

/-- The first fields of a byte string are cut at a separator. -/
theorem cut_fields (sep : UInt8) (n : Nat) (s : Bytes) :
    Cut sep n s (joined sep ((fields sep s).take (n + 1))) := by
  have hcut := cut_joined (n := n) (fields_ne_nil sep s) fun f ↦ sep_notMem_of_mem_fields
  rwa [joined_fields] at hcut

/-- A lossy text is shorter than what it was cut from, if anything is missing. -/
theorem Cut.decodeLossy_eq_iff {whole kept : Bytes} (h : Cut sep n whole kept)
    (hsep : sep < 0x80) :
    Utf8.decodeLossy kept = Utf8.decodeLossy whole ↔ whole.count sep ≤ n := by
  rcases h with ⟨rfl, hcount⟩ | ⟨hcount, dropped, rfl⟩
  · exact iff_of_true rfl hcount
  · apply iff_of_false
    · intro heq
      have hlength := congrArg String.length heq
      rw [Utf8.decodeLossy_append_ascii kept dropped hsep, String.length_append,
        String.length_append, String.length_ofList, List.length_singleton] at hlength
      omega
    · rw [List.count_append, List.count_cons_self]
      omega

end Bytes

namespace Escape

/-- The bytes that a command keeps. -/
def printed (body : Bytes) : Bytes := body.filter (0x20 ≤ ·)

variable {collected body : Bytes}

/-- A byte of a command is collected, unless it is a control character. -/
theorem step_of_isHeld (collected : Bytes) {b : UInt8} (h : isHeld b = true) :
    step (.command collected) b = (.command ((printed [b]).reverse ++ collected), []) := by
  rw [documented.command_held collected h]
  split
  · next hcontrol => simp [printed, UInt8.not_le.2 hcontrol]
  · next hcontrol => simp [printed, UInt8.not_lt.1 hcontrol]

/-- The bytes of a command are collected, and nothing is found among them. -/
theorem run_of_isHeld (collected : Bytes) (h : ∀ b ∈ body, isHeld b = true) :
    run (.command collected) body = (.command ((printed body).reverse ++ collected), []) ∧
      Keeps (.command collected) body := by
  induction body generalizing collected with
  | nil => exact ⟨rfl, trivial⟩
  | cons b body ih =>
    rw [List.forall_mem_cons] at h
    have hstep := step_of_isHeld collected h.1
    obtain ⟨hrun, hkeeps⟩ := ih ((printed [b]).reverse ++ collected) h.2
    have hprinted : printed (b :: body) = printed [b] ++ printed body := by
      rw [printed, printed, printed, ← List.filter_append, List.singleton_append]
    refine ⟨?_, ?_⟩
    · rw [run, hstep]
      dsimp only
      rw [hrun, hprinted, List.reverse_append, List.append_assoc]
      rfl
    · refine ⟨by simp, ?_⟩
      rw [hstep]
      exact hkeeps

/-- A bell or another ESC ends a command. -/
theorem run_ended (collected : Bytes) {ending : Bytes}
    (hending : ending = [bel] ∨ ending = [esc, 0x5C]) :
    run (.command collected) ending = (.text, [closeCommand collected]) ∧
      Keeps (.command collected) ending := by
  rcases hending with rfl | rfl
  · refine ⟨?_, by simp, trivial⟩
    rw [run, documented.command_bel]
    rfl
  · have hterminator : step .escape 0x5C = (.text, []) := documented.terminator
    refine ⟨?_, by simp, ?_, trivial⟩
    · rw [run, documented.command_esc]
      dsimp only
      rw [run, hterminator]
      rfl
    · rw [documented.restarts]
      simp

/-- A command that is read behind an ESC and is ended by a bell or by another ESC. -/
theorem run_command {ending : Bytes} (h : ∀ b ∈ body, isHeld b = true)
    (hending : ending = [bel] ∨ ending = [esc, 0x5C]) :
    run .escape (0x5D :: (body ++ ending)) =
        (.text, [.command ((Bytes.fields 0x3B (printed body)).take maxFields)]) ∧
      Keeps .escape (0x5D :: (body ++ ending)) := by
  obtain ⟨hrun, hkeeps⟩ := run_of_isHeld [] h
  obtain ⟨hclose, hend⟩ := run_ended (printed body).reverse hending
  rw [List.append_nil] at hrun
  constructor
  · rw [run, documented.opens_command]
    dsimp only
    rw [run_append, hrun]
    dsimp only
    rw [hclose, closeCommand, List.reverse_reverse]
    rfl
  · refine ⟨by simp, ?_⟩
    rw [documented.opens_command, keeps_append, hrun]
    exact ⟨hkeeps, hend⟩

end Escape

namespace Emulation

/-- A caption is decoded as a whole. -/
theorem caption_eq (fields : List Bytes) :
    caption fields = Utf8.decodeLossy (Bytes.joined 0x3B fields) := by
  fun_induction Bytes.joined 0x3B fields with
  | case1 => rfl
  | case2 f => simp [caption]
  | case3 f g rest ih =>
    rw [Utf8.decodeLossy_append_ascii f _ (by decide), ← ih, caption, caption, List.map_cons,
      List.map_cons, String.intercalate_cons_cons]
    rfl

/-- Whether a command is a title of some kind: the number of the kind and a semicolon, in front of
all else. -/
def IsTitle (command : Bytes) (what : UInt16) (rest : Bytes) : Prop :=
  what ∈ titleKinds ∧ ∃ number, command = number ++ 0x3B :: rest ∧
    Numeral.IsNumeral number what.toNat

/-- There is no semicolon in a numeral. -/
theorem semicolon_notMem {number : Bytes} {n : Nat} (h : Numeral.IsNumeral number n) :
    0x3B ∉ number := by
  obtain ⟨sign, digits, rfl, hsign, -, hdigits, -⟩ := h
  rw [List.mem_append, not_or]
  constructor
  · rcases hsign with rfl | rfl
    · exact List.not_mem_nil
    · decide
  · intro hmem
    exact absurd (hdigits 0x3B hmem) (by decide)

/-- The fields of a command with a semicolon are what stands in front of the first and the fields of
what stands behind it. -/
theorem fields_command {number rest : Bytes} (h : 0x3B ∉ number) :
    (Bytes.fields 0x3B (number ++ 0x3B :: rest)).take Escape.maxFields =
      number :: (Bytes.fields 0x3B rest).take 15 := by
  rw [Bytes.fields_append_of_notMem h, Bytes.fields, if_pos rfl, List.modifyHead_cons,
    List.append_nil]
  rfl

/-- The fields of a command report what the first of them, as a number, makes of the others. -/
theorem ofCommand_cons (number : Bytes) {fields : List Bytes} (h : fields ≠ []) :
    ofCommand (number :: fields) = ((Utf8.decode? number).bind Numeral.word?).bind fun kind ↦
      if kind ∈ titleKinds then some (.userTitle kind (caption fields)) else none := by
  cases fields with
  | nil => exact absurd rfl h
  | cons field fields =>
    rw [Option.bind_assoc]
    unfold ofCommand
    dsimp only [bind, pure]
    congr 1
    funext text
    congr 1
    funext kind
    by_cases hkind : kind ∈ titleKinds
    · have hpassed : (guard (kind ∈ titleKinds) : Option Unit) = some () := if_pos hkind
      rw [if_pos hkind, hpassed]
      rfl
    · have hfailed : (guard (kind ∈ titleKinds) : Option Unit) = none := if_neg hkind
      rw [if_neg hkind, hfailed]
      rfl

/-- A command that is a title reports it. -/
theorem ofCommand_of_isTitle {command rest : Bytes} {what : UInt16}
    (h : IsTitle command what rest) :
    ofCommand ((Bytes.fields 0x3B command).take Escape.maxFields) =
      some (.userTitle what (caption ((Bytes.fields 0x3B rest).take 15))) := by
  obtain ⟨hwhat, number, rfl, hnumber⟩ := h
  have hne : (Bytes.fields 0x3B rest).take 15 ≠ [] := by
    simp [List.take_eq_nil_iff, Bytes.fields_ne_nil]
  rw [fields_command (semicolon_notMem hnumber), ofCommand_cons number hne,
    Numeral.word?_decode?_eq_some_iff.2 hnumber, Option.bind_some, if_pos hwhat]

/-- A command that is no title reports nothing. -/
theorem ofCommand_of_not_isTitle {command : Bytes} (h : ∀ what rest, ¬ IsTitle command what rest) :
    ofCommand ((Bytes.fields 0x3B command).take Escape.maxFields) = none := by
  by_cases hsep : 0x3B ∈ command
  · obtain ⟨number, rest, rfl, hnumber⟩ := List.eq_append_cons_of_mem hsep
    have hne : (Bytes.fields 0x3B rest).take 15 ≠ [] := by
      simp [List.take_eq_nil_iff, Bytes.fields_ne_nil]
    rw [fields_command hnumber, ofCommand_cons number hne]
    cases hwhat : (Utf8.decode? number).bind Numeral.word? with
    | none => rfl
    | some what =>
      have hnumeral := Numeral.word?_decode?_eq_some_iff.1 hwhat
      apply if_neg
      intro hkind
      exact h what rest ⟨hkind, number, rfl, hnumeral⟩
  · have hone := Bytes.fields_append_of_notMem (t := []) hsep
    rw [List.append_nil] at hone
    rw [hone]
    rfl

namespace TitleTracker

/-- Whatever was fed before and however the output is cut, a command is reported as a title exactly
if a number of a kind and a semicolon begin it, control characters left out, and its caption is all
that stands behind, up to the fifteenth semicolon. What the ESC ends of that which was fed before
is reported besides, and so is what comes later. -/
theorem titles_recognised (t : TitleTracker) (before : List Use) (last : Bytes) {after : List Use}
    {head body ending more : Bytes}
    (hbody : ∀ b ∈ body, b ≠ Escape.bel ∧ Escape.isCancel b = false ∧ b ≠ Escape.esc)
    (hending : ending = [Escape.bel] ∨ ending = [Escape.esc, 0x5C])
    (hafter : ∀ x ∈ after, x.isOutput = true)
    (hfed : head ++ output after = 0x5D :: (body ++ ending) ++ more) :
    ∃ events later, later.Sublist more ∧
      t.told (before ++ .receive (last ++ Escape.esc :: head) :: after) =
        t.told (before ++ [.receive last]) ++
          reports (t.run (before ++ [.receive last])).2.parser [Escape.esc] ++ events ++
          reports .text later ∧
      (∀ what rest, IsTitle (body.filter (0x20 ≤ ·)) what rest →
        ∃ kept, Bytes.Cut 0x3B 14 rest kept ∧
          events = [.userTitle what (Utf8.decodeLossy kept)] ∧
          (Utf8.decodeLossy kept = Utf8.decodeLossy rest ↔ rest.count 0x3B ≤ 14)) ∧
      ((∀ what rest, ¬ IsTitle (body.filter (0x20 ≤ ·)) what rest) → events = []) := by
  have hheld : ∀ b ∈ body, Escape.isHeld b = true := by
    intro b hb
    obtain ⟨hbel, hcancel, hesc⟩ := hbody b hb
    simp [Escape.isHeld, hbel, hcancel, hesc]
  obtain ⟨hrun, hkeeps⟩ := Escape.run_command hheld hending
  obtain ⟨later, hlater, htold⟩ := t.told_sequence before last (b := 0x5D) (by decide)
    hkeeps hafter hfed
  have hreports : reports .escape (0x5D :: (body ++ ending)) =
      (ofCommand ((Bytes.fields 0x3B (Escape.printed body)).take Escape.maxFields)).toList := by
    rw [reports, hrun]
    exact filterMap_ofToken _
  rw [hrun, hreports] at htold
  refine ⟨_, later, hlater, htold, ?_, ?_⟩
  · intro what rest htitle
    have hcut := Bytes.cut_fields 0x3B 14 rest
    refine ⟨_, hcut, ?_, hcut.decodeLossy_eq_iff (by decide)⟩
    rw [Escape.printed, ofCommand_of_isTitle htitle, caption_eq]
    rfl
  · intro hnone
    rw [Escape.printed, ofCommand_of_not_isTitle hnone]
    rfl

/-- A title behind another that was not ended, cut into blocks, with a sign, a leading zero, a
control character and half a character in front of a semicolon. -/
theorem titles_recognised_cut :
    let t : TitleTracker := {}
    let before : List Use := [.receive (Escape.esc :: Bytes.ofAscii "]0;a")]
    let after : List Use := [.take, .receive (Bytes.ofAscii "02;c" ++ [0x01]),
      .receive ([0xC3] ++ Bytes.ofAscii ";d" ++ [Escape.esc, 0x5C])]
    let straddling : Bytes := Bytes.ofAscii ";b" ++ Escape.esc :: Bytes.ofAscii "]+"
    t.told (before ++ .receive straddling :: after) =
      [.userTitle 0 "a;b", .userTitle 2 "c\uFFFD;d"] := by
  intro t before after straddling
  let rest : Bytes := Bytes.ofAscii "c" ++ [0xC3] ++ Bytes.ofAscii ";d"
  let body : Bytes := Bytes.ofAscii "+02;c" ++ [0x01, 0xC3] ++ Bytes.ofAscii ";d"
  have hfed : Bytes.ofAscii "]+" ++ output after =
      0x5D :: (body ++ [Escape.esc, 0x5C]) ++ [] := by decide
  obtain ⟨events, later, hlater, htold, htitle, -⟩ := titles_recognised t before
    (Bytes.ofAscii ";b") (List.all_iff_forall_prop.1 (by decide)) (.inr rfl) (by decide) hfed
  have hdigits : ∀ b ∈ Bytes.ofAscii "02", Escape.isDigit b = true :=
    List.all_iff_forall_prop.1 (by decide)
  have hnumeral : Numeral.IsNumeral (Bytes.ofAscii "+02") (2 : UInt16).toNat :=
    ⟨[0x2B], Bytes.ofAscii "02", rfl, .inr rfl, by decide, hdigits, rfl⟩
  obtain ⟨kept, -, hevents, hfull⟩ := htitle 2 rest ⟨by decide, _, by decide, hnumeral⟩
  have hcaption : Utf8.decodeLossy kept = "c\uFFFD;d" := (hfull.2 (by decide)).trans (by decide)
  have hopened : t.told (before ++ [.receive (Bytes.ofAscii ";b")]) ++
      reports (t.run (before ++ [.receive (Bytes.ofAscii ";b")])).2.parser [Escape.esc] =
        [.userTitle 0 "a;b"] := by decide
  obtain rfl := List.sublist_nil.1 hlater
  rw [hopened, hevents, hcaption] at htold
  exact htold

end TitleTracker

end Emulation

end PtyHost

import PtyHost.Proofs.Emulation.Reports

/-!
# Sequences in output that is cut anywhere

A sequence begins with an ESC, whatever the parser was reading, and is over when the parser is back
in text. No byte of it is lost: a byte is lost in text only, and an ESC only in front of a byte
beyond ASCII. So a sequence reports the same wherever the output is cut, in its middle too, and
whatever was read before it.

Main statement: `TitleTracker.told_sequence`.
-/

namespace PtyHost

namespace Escape

/-- Whether no two-byte character has begun in front of any of some bytes, so that all of them are
heeded, however they are cut. -/
def Keeps : State → Bytes → Prop
  | _, [] => True
  | s, b :: bytes => s ≠ .ground true ∧ Keeps (step s b).1 bytes

variable {s : State}

/-- Bytes are kept one part after the other. -/
theorem keeps_append {a b : Bytes} :
    Keeps s (a ++ b) ↔ Keeps s a ∧ Keeps (run s a).1 b := by
  induction a generalizing s with
  | nil => simp [Keeps, run]
  | cons x a ih => simp [Keeps, run, ih, and_assoc]

/-- Bytes that are kept are heeded. -/
theorem heeded_of_keeps {block : Bytes} (h : Keeps s block) : heeded s block = block := by
  cases block with
  | nil => exact heeded_nil s
  | cons b block => exact heeded_of_ne h.1 (b :: block)

/-- Where the parser is behind an ESC and more depends on nothing in front of the ESC. -/
theorem state_run_esc (s : State) (bytes : Bytes) :
    (run s (esc :: bytes)).1 = (run .escape bytes).1 := by
  rw [← documented.restarts s]
  rfl

/-- An ESC keeps no byte in front of it from being lost, and neither it nor what is behind it is
lost if this begins with an ASCII byte. -/
theorem lost?_append_esc (s : State) (last : Bytes) {rest : Bytes}
    (h : ∀ b ∈ rest.head?, b < 0x80) : lost? s (last ++ esc :: rest) = lost? s last := by
  match last with
  | [] =>
    match rest with
    | [] | [_] => rfl
    | b :: c :: rest => exact if_neg fun hlost ↦ absurd hlost.2.1 (by decide)
  | [x] =>
    cases rest with
    | nil => rfl
    | cons b rest => exact if_neg fun hlost ↦ UInt8.not_le.2 (h b rfl) hlost.2.2.2
  | [x, y] => exact if_neg fun hlost ↦ absurd hlost.2.2.2 (by decide)
  | x :: y :: z :: last => rfl

/-- What is in front of an ESC is heeded as if it were a block of its own. -/
theorem heeded_append_esc (s : State) (last : Bytes) {rest : Bytes}
    (h : ∀ b ∈ rest.head?, b < 0x80) :
    heeded s (last ++ esc :: rest) = heeded s last ++ esc :: rest := by
  have hsame := lost?_append_esc s last h
  cases hlost : lost? s last with
  | none => rw [documented.heeds hlost, documented.heeds (hsame.trans hlost)]
  | some lost =>
    obtain ⟨rfl, b, next, more, rfl, -⟩ := lost?_eq_some_iff.1 hlost
    rw [documented.loses more hlost]
    exact documented.loses _ (hsame.trans hlost)

end Escape

namespace Emulation

/-- Bytes report what the first of them reports, and what the others do from there. -/
theorem reports_cons (s : Escape.State) (b : UInt8) (bytes : Bytes) :
    reports s (b :: bytes) = reports s [b] ++ reports (Escape.step s b).1 bytes :=
  reports_append s [b] bytes

/-- One token reports at most one event. -/
theorem filterMap_ofToken (token : Escape.Token) :
    [token].filterMap ofToken = (ofToken token).toList := by
  cases htoken : ofToken token with
  | none => simp [htoken]
  | some event => simp [htoken]

namespace TitleTracker

variable {t u : TitleTracker} {uses : List Use}

/-- What is heeded depends on nothing but the parser. -/
theorem heard_congr (h : t.parser = u.parser) : t.heard uses = u.heard uses := by
  induction uses generalizing t u with
  | nil => rfl
  | cons x uses ih =>
    have hnext : (t.use x).2.parser = (u.use x).2.parser := by rw [parser_use, parser_use, h]
    rw [heard, heard, h, ih hnext]

/-- Bytes that are kept are all heeded, wherever they are cut. -/
theorem heard_of_keeps {bytes more : Bytes} (h : Escape.Keeps t.parser bytes)
    (houtput : output uses = bytes ++ more) :
    ∃ later, later.Sublist more ∧ t.heard uses = bytes ++ later := by
  induction uses generalizing t bytes with
  | nil =>
    obtain ⟨rfl, rfl⟩ := List.append_eq_nil_iff.1 houtput.symm
    exact ⟨[], List.Sublist.refl [], rfl⟩
  | cons x uses ih =>
    have hblock : x.block ++ output uses = bytes ++ more := houtput
    -- The bytes end behind this block or within it.
    rcases List.append_eq_append_iff.1 hblock with ⟨rest, rfl, hrest⟩ | ⟨extra, hextra, rfl⟩
    · obtain ⟨hfirst, hlater⟩ := Escape.keeps_append.1 h
      have hheeded := Escape.heeded_of_keeps hfirst
      have hnext : Escape.Keeps (t.use x).2.parser rest := by rwa [parser_use, hheeded]
      obtain ⟨later, hsublist, hheard⟩ := ih hnext hrest
      exact ⟨later, hsublist, by rw [heard, hheeded, hheard, List.append_assoc]⟩
    · cases bytes with
      | nil => exact ⟨t.heard (x :: uses), houtput ▸ (heard_sublist t (x :: uses)).1, rfl⟩
      | cons b bytes =>
        have hheeded := Escape.heeded_of_ne h.1 x.block
        refine ⟨extra ++ (t.use x).2.heard uses, ?_, ?_⟩
        · exact (List.Sublist.refl extra).append (heard_sublist (t.use x).2 uses).1
        · rw [heard, hheeded, hextra, List.append_assoc]

/-- What is told in two parts. -/
theorem told_append (t : TitleTracker) (a b : List Use) :
    t.told (a ++ b) = (t.run a).1 ++ (t.run a).2.told b := by
  rw [told, run_append, List.append_assoc]
  rfl

/-- A sequence is heeded as a whole behind an ESC. -/
theorem heard_sequence (last : Bytes) {b : UInt8} {head bytes more : Bytes} {after : List Use}
    (hb : b < 0x80) (h : Escape.Keeps .escape (b :: bytes))
    (hfed : head ++ output after = b :: bytes ++ more) :
    ∃ later, later.Sublist more ∧
      t.heard (.receive (last ++ Escape.esc :: head) :: after) =
        Escape.heeded t.parser last ++ Escape.esc :: (b :: bytes ++ later) := by
  have hhead : ∀ c ∈ head.head?, c < 0x80 := by
    intro c hc
    cases head with
    | nil => cases hc
    | cons d head =>
      obtain rfl : d = c := by simpa using hc
      obtain ⟨rfl, -⟩ := List.cons_eq_cons.1 hfed
      exact hb
  have hblock := Escape.heeded_append_esc t.parser last hhead
  -- Behind the ESC, the tracker goes on like one that has read nothing but the ESC.
  let begun : TitleTracker := { t with parser := .escape }
  have hbegun : Escape.heeded begun.parser head = head :=
    Escape.heeded_of_ne (by simp [begun]) head
  have houtput : output (.receive head :: after) = b :: bytes ++ more := hfed
  obtain ⟨later, hsublist, hheard⟩ := heard_of_keeps (t := begun) h houtput
  have hparser : (t.use (.receive (last ++ Escape.esc :: head))).2.parser =
      (begun.use (.receive head)).2.parser := by
    rw [parser_use, parser_use, Use.block, Use.block, hblock, hbegun, Escape.run_append]
    exact Escape.state_run_esc _ head
  refine ⟨later, hsublist, ?_⟩
  rw [heard, Use.block, hbegun] at hheard
  rw [heard, Use.block, hblock, heard_congr hparser, List.append_assoc, List.cons_append, hheard]

/-- A sequence reports what it reports behind an ESC, besides what the ESC ends and what comes
later, whatever was read before it and wherever the output is cut. -/
theorem told_sequence (t : TitleTracker) (before : List Use) (last : Bytes) {after : List Use}
    {b : UInt8} {head bytes more : Bytes} (hb : b < 0x80) (h : Escape.Keeps .escape (b :: bytes))
    (hafter : ∀ x ∈ after, x.isOutput = true)
    (hfed : head ++ output after = b :: bytes ++ more) :
    ∃ later, later.Sublist more ∧
      t.told (before ++ .receive (last ++ Escape.esc :: head) :: after) =
        t.told (before ++ [.receive last]) ++
          reports (t.run (before ++ [.receive last])).2.parser [Escape.esc] ++
          reports .escape (b :: bytes) ++
          reports (Escape.run .escape (b :: bytes)).1 later := by
  let u := (t.run before).2
  obtain ⟨later, hsublist, hheard⟩ := heard_sequence (t := u) last hb h hfed
  have hall : ∀ x ∈ .receive (last ++ Escape.esc :: head) :: after, x.isOutput = true :=
    List.forall_mem_cons.2 ⟨rfl, hafter⟩
  have htold : u.told (.receive (last ++ Escape.esc :: head) :: after) = _ := told_run hall
  have hkept : u.heard [.receive last] = Escape.heeded u.parser last := List.append_nil _
  have hlast : u.told [.receive last] = _ := told_run (by simp [Use.isOutput])
  have hparser : (t.run (before ++ [.receive last])).2.parser =
      (Escape.run u.parser (Escape.heeded u.parser last)).1 := by
    rw [run_append]
    exact parser_use u (.receive last)
  refine ⟨later, hsublist, ?_⟩
  rw [told_append, told_append, htold, hlast, hheard, hparser, hkept, reports_append, reports_cons,
    Escape.documented.restarts, reports_append]
  simp only [List.append_assoc]

end TitleTracker

end Emulation

end PtyHost

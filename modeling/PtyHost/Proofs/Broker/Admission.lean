import PtyHost.Broker.Command
import PtyHost.Proofs.CommandLine.Declared

/-!
# What the helper can be asked for

The helper runs with all privileges, and its caller chooses its arguments. They can say no more
than which of its two jobs it does: no argument vector that holds anything else is accepted, so
that no path and no other value can reach it that way. This holds of every parser that reads
declared command lines as documented.

Main statement: `one_mode_admitted`.
-/

namespace PtyHost.Broker

open CommandLine (Declaration Documented eq_options longForm operands options separator)

/-- An argument vector that holds, behind the program's name, the flag of a mode and nothing else
but a closing `--`. -/
def Selects (args : List Bytes) (m : Mode) : Prop :=
  ∃ program, args = [program, Bytes.ofAscii m.flag] ∨
    args = [program, Bytes.ofAscii m.flag, separator]

/-- The name of the flag that selects a mode. -/
def Mode.name : Mode → String
  | .grant => "grant"
  | .revoke => "revoke"

/-- The flag of a mode is the long form of its name. -/
theorem Mode.longForm_name (m : Mode) : longForm m.name = Bytes.ofAscii m.flag := by
  cases m <;> decide

/-- The helper has a flag for each mode. -/
theorem Mode.name_mem_flags (m : Mode) : m.name ∈ declaration.flags := by
  cases m <;> decide

/-- The helper has no flags but those of the modes. -/
theorem exists_mode_of_mem_flags {f : String} (h : f ∈ declaration.flags) :
    ∃ m : Mode, f = m.name := by
  rcases List.mem_pair.1 h with rfl | rfl
  · exact ⟨.grant, rfl⟩
  · exact ⟨.revoke, rfl⟩

/-- The flags of the helper can be told apart. -/
theorem declaration_sound : declaration.Sound where
  nodup := by decide
  ne_separator := by decide
  equals_notMem := by decide
  not_help := by decide
  not_version := by decide
  members := by decide

/-- The flags of exactly one mode select this mode. -/
theorem mode_ofGiven {given : List String} {m : Mode} (h : ∀ m' : Mode, m'.name ∈ given ↔ m' = m) :
    (Flags.ofGiven given).mode = m := by
  have hgrant : "grant" ∈ given ↔ Mode.grant = m := h .grant
  cases m <;> simp [Flags.ofGiven, Flags.mode, hgrant]

section Parser

variable {ρ : Type} {parse : Declaration → List Bytes → Except ρ (List String)}
  {args : List Bytes} {given : List String}

/-- The flag of exactly one mode is given, if the arguments are accepted. -/
theorem exists_mode_given (hparse : Documented parse) (hok : parse declaration args = .ok given) :
    ∃ m : Mode, ∀ m' : Mode, m'.name ∈ given ↔ m' = m := by
  have hgroup : modeGroup ∈ declaration.groups := List.mem_singleton_self modeGroup
  obtain ⟨f, hf, hgiven⟩ := hparse.required declaration_sound hok _ hgroup rfl
  obtain ⟨m, rfl⟩ := exists_mode_of_mem_flags hf
  refine ⟨m, fun m' ↦ ⟨fun hgiven' ↦ ?_, fun h ↦ h ▸ hgiven⟩⟩
  have hsame : m'.name = m.name :=
    hparse.exclusive declaration_sound hok _ hgroup Bool.false_ne_true _ m'.name_mem_flags _ hf
      hgiven' hgiven
  revert hsame
  cases m <;> cases m' <;> decide

/-- Accepted arguments are the flag of the mode that they select, once, and a closing `--` at
most. -/
theorem selects_of_parse (hparse : Documented parse) (hok : parse declaration args = .ok given) :
    Selects args (Flags.ofGiven given).mode := by
  obtain ⟨m, hm⟩ := exists_mode_given hparse hok
  rw [mode_ofGiven hm]
  have hmem : longForm m.name ∈ options args.tail :=
    (hparse.mem_given declaration_sound hok _ m.name_mem_flags).1 ((hm m).2 rfl)
  have hall : ∀ arg ∈ options args.tail, arg = longForm m.name := by
    intro arg harg
    obtain ⟨f, hf, rfl⟩ := hparse.declared declaration_sound hok arg harg
    obtain ⟨m', rfl⟩ := exists_mode_of_mem_flags hf
    rw [(hm m').1 ((hparse.mem_given declaration_sound hok _ hf).2 harg)]
  have hopts : options args.tail = [Bytes.ofAscii m.flag] := by
    rw [← m.longForm_name]
    by_contra hne
    rcases ((hparse.once declaration_sound hok).ne_singleton_iff _).1 hne with
      hnil | ⟨arg, harg, hother⟩
    · rw [hnil] at hmem
      cases hmem
    · exact hother (hall arg harg)
  have hops := hparse.no_operand declaration_sound hok
  obtain ⟨program, hargs⟩ : ∃ program, args = program :: args.tail := by
    cases args with
    | nil => cases hopts
    | cons program rest => exact ⟨program, rfl⟩
  rw [hargs]
  refine ⟨program, (eq_options args.tail).imp (fun h ↦ ?_) fun h ↦ ?_⟩
  · rw [h, hopts]
  · rw [h, hopts, hops]
    rfl

/-- The arguments behind the program's name, if they select a mode. -/
theorem Selects.options_operands {m : Mode} (h : Selects args m) :
    options args.tail = [m.name].map longForm ∧ operands args.tail = [] := by
  obtain ⟨program, rfl | rfl⟩ := h
  all_goals
    rw [List.tail_cons]
    cases m <;> decide

/-- The flag of a mode is accepted, and gives no other. -/
theorem parse_of_selects (hparse : Documented parse) {m : Mode} (h : Selects args m) :
    ∃ given, parse declaration args = .ok given ∧ ∀ m' : Mode, m'.name ∈ given ↔ m' = m := by
  obtain ⟨hopts, hops⟩ := h.options_operands
  obtain ⟨given, hok⟩ := hparse.accepts declaration_sound hopts hops
    (List.nodup_singleton _) (List.forall_mem_singleton.2 m.name_mem_flags)
    (by cases m <;> decide)
  refine ⟨given, hok, fun m' ↦ ?_⟩
  rw [hparse.mem_given declaration_sound hok _ m'.name_mem_flags, hopts, List.map_singleton,
    List.mem_singleton]
  cases m <;> cases m' <;> decide

/-- Arguments that select no mode are refused. -/
theorem parseMode_of_not_selects (hparse : Documented parse) (render : ρ → String)
    (h : ∀ m, ¬ Selects args m) :
    ∃ e, parse declaration args = .error e ∧
      parseMode parse render args = .error (.invalidArguments (render e)) := by
  cases hok : parse declaration args with
  | error e => exact ⟨e, rfl, by rw [parseMode, hok]⟩
  | ok given => exact absurd (selects_of_parse hparse hok) (h _)

end Parser

/-- The helper accepts an argument vector exactly if it is the program's name, the flag of one
mode, and at most a closing `--`, and then does the job of this mode. Every other vector is an
invalid argument. -/
theorem one_mode_admitted {ρ : Type} {parse : Declaration → List Bytes → Except ρ (List String)}
    (hparse : Documented parse) (render : ρ → String) (args : List Bytes) :
    (∀ m, parseMode parse render args = .ok m ↔ Selects args m) ∧
      ((∀ m, ¬ Selects args m) →
        ∃ e, parse declaration args = .error e ∧
          parseMode parse render args = .error (.invalidArguments (render e))) := by
  refine ⟨fun m ↦ ⟨fun hok ↦ ?_, fun h ↦ ?_⟩, parseMode_of_not_selects hparse render⟩
  · unfold parseMode at hok
    split at hok
    · rename_i given hgiven
      rw [← Except.ok.inj hok]
      exact selects_of_parse hparse hgiven
    · cases hok
  · obtain ⟨given, hok, hgiven⟩ := parse_of_selects hparse h
    rw [parseMode, hok]
    exact congrArg Except.ok (mode_ofGiven hgiven)

/-- The helper grants when it is asked to, also with a closing `--`, and with a path behind the
flag it says how it is used. -/
theorem one_mode_admitted_grant :
    Documented Declaration.parse ∧
      parseMode Declaration.parse (fun _ ↦ usage)
        [Bytes.ofAscii "helper", Bytes.ofAscii "--grant", separator] = .ok .grant ∧
      parseMode Declaration.parse (fun _ ↦ usage)
        [Bytes.ofAscii "helper", Bytes.ofAscii "--grant", Bytes.ofAscii "/etc/shadow"] =
          .error (.invalidArguments usage) := by
  refine ⟨Declaration.parse_documented, ?_, ?_⟩
  · exact ((one_mode_admitted Declaration.parse_documented _ _).1 .grant).2 ⟨_, .inr rfl⟩
  · obtain ⟨e, -, he⟩ := (one_mode_admitted Declaration.parse_documented (fun _ ↦ usage)
      [Bytes.ofAscii "helper", Bytes.ofAscii "--grant", Bytes.ofAscii "/etc/shadow"]).2 <| by
        rintro m ⟨program, h | h⟩
        · exact absurd (congrArg List.length h) (by simp)
        · simp only [List.cons.injEq] at h
          exact absurd h.2.2.1 (by decide)
    exact he

end PtyHost.Broker

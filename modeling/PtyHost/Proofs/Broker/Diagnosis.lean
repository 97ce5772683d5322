import Mathlib.Data.List.TakeWhile
import PtyHost.Broker.Error
import PtyHost.Proofs.Path.Components
import PtyHost.Proofs.Text.Utf8

/-!
# The failure a caller rebuilds

The helper prints a failure and exits with its code; the caller rebuilds the failure from the code
and from all that was printed, which may hold other text before and after. The code alone gives the
kind. The texts never come back unchanged, because the caller takes the whole wording for the text.
A path does, as far as the wording shows it: the caller reads it between the first quotation marks.

Main statements: `countP_trimmedChars` (trimming loses no visible character, so a text is never the
whole wording that contains it), `quoted?_of_notMem` (the quoted path is found behind text without
a quotation mark), `plain_of_components` (paths that differ in spelling only agree on whether they
can be quoted) and `failure_rebuilt`, which puts them together.
-/

namespace PtyHost

/-! ### Trimming -/

namespace Text

section Trim

variable {p : Char → Bool} {c : Char}

/-- What is taken from the front ends before a character that is not taken. -/
theorem takeWhile_append_cons (h : p c = false) (u v : List Char) :
    (u ++ c :: v).takeWhile p = u.takeWhile p := by
  rw [List.takeWhile_append, List.takeWhile_cons_of_neg (by simp [h]), List.append_nil]
  split
  next hu => exact ((List.takeWhile_prefix p).eq_of_length hu).symm
  next => rfl

/-- Trimming takes nothing from between two visible characters. -/
theorem trimmedChars_around {c d : Char} (hc : isBlank c = false) (hd : isBlank d = false)
    (u m w : List Char) :
    trimmedChars (u ++ c :: (m ++ d :: w)) =
      u.dropWhile isBlank ++ c :: (m ++ d :: (w.reverse.dropWhile isBlank).reverse) := by
  have hreverse : (u.dropWhile isBlank ++ c :: (m ++ d :: w)).reverse =
      w.reverse ++ d :: (u.dropWhile isBlank ++ c :: m).reverse := by
    simp
  rw [trimmedChars, dropWhile_append_cons hc, hreverse, dropWhile_append_cons hd]
  simp

/-- Dropping blanks loses no visible character. -/
theorem countP_dropWhile_isBlank (cs : List Char) :
    (cs.dropWhile isBlank).countP (!isBlank ·) = cs.countP (!isBlank ·) := by
  rw [List.countP_eq_length_filter, filter_dropWhile, List.countP_eq_length_filter]

/-- Trimming loses no visible character. -/
theorem countP_trimmedChars (cs : List Char) :
    (trimmedChars cs).countP (!isBlank ·) = cs.countP (!isBlank ·) := by
  rw [trimmedChars, List.countP_reverse, countP_dropWhile_isBlank, List.countP_reverse,
    countP_dropWhile_isBlank]

end Trim

end Text

/-! ### Paths that can be quoted -/

namespace Broker.Error

open PtyHost.Path (slash)

/-- Bytes that are shown as they are and hold no closing quotation mark. -/
def Plain (s : Bytes) : Prop := ∃ t : String, s = Utf8.encode t ∧ ∀ c ∈ t.toList, c ≠ closingQuote

/-- The fields of plain bytes are plain. -/
theorem Plain.fields {s f : Bytes} (h : Plain s) (hf : f ∈ s.fields slash) : Plain f := by
  obtain ⟨t, rfl, ht⟩ := h
  obtain ⟨u, rfl, hu⟩ := Utf8.mem_fields_encode (by decide) hf
  exact ⟨u, rfl, fun c hc ↦ ht c (hu hc)⟩

/-- Bytes with plain fields are plain. -/
theorem plain_of_fields {s : Bytes} (h : ∀ f ∈ s.fields slash, Plain f) : Plain s := by
  have hjoined := Utf8.joined_encode (c := '/') (by decide) (P := (· ≠ closingQuote)) (by decide) h
  rwa [show UInt8.ofNat '/'.toNat = slash from rfl, Bytes.joined_fields] at hjoined

/-- The empty field is plain. -/
theorem plain_nil : Plain [] := ⟨"", rfl, by simp⟩

/-- A dot is plain. -/
theorem plain_dot : Plain Path.dot := ⟨".", by decide, by simp [closingQuote]⟩

/-- Two dots are plain. -/
theorem plain_dotDot : Plain Path.dotDot := ⟨"..", by decide, by simp [closingQuote]⟩

/-- A path that differs from a plain one in spelling only is plain. -/
theorem plain_of_components {p q : Path} (h : p.components = q.components) (hq : Plain q.bytes) :
    Plain p.bytes := by
  refine plain_of_fields fun f hf ↦ ?_
  by_cases hnil : f = []
  · exact hnil ▸ plain_nil
  by_cases hdot : f = Path.dot
  · exact hdot ▸ plain_dot
  by_cases hdots : f = Path.dotDot
  · exact hdots ▸ plain_dotDot
  have hname : .normal f ∈ q.components :=
    h ▸ Path.normal_mem_components_iff.2 ⟨hf, hnil, hdot, hdots⟩
  exact hq.fields (Path.normal_mem_components_iff.1 hname).1

/-! ### The rebuilt failure -/

/-- What kind of failure it is, without its texts and paths. -/
inductive Kind
  | invalidArguments
  | notPrivileged
  | deviceResolutionFailed
  | notACharacterDevice
  | permissionChangeFailed
deriving DecidableEq, Repr

/-- The kind of a failure. -/
def kind : Error → Kind
  | .invalidArguments _ => .invalidArguments
  | .notPrivileged => .notPrivileged
  | .deviceResolutionFailed _ => .deviceResolutionFailed
  | .notACharacterDevice _ => .notACharacterDevice
  | .permissionChangeFailed .. => .permissionChangeFailed

/-- The failures that a caller rebuilds exactly: the one without a text, and the one with a path
that is valid UTF-8 and holds no apostrophe. -/
def Recoverable : Error → Prop
  | .notPrivileged => True
  | .notACharacterDevice p => Plain p.bytes
  | _ => False

/-- A text is never all that stands, trimmed, around a wording that says more than the text. -/
theorem append_trimmed_ne (label : String) (h : ∃ c ∈ label.toList, Text.isBlank c = false)
    (front before text after : String) :
    front ++ Text.trimmed (before ++ (label ++ text) ++ after) ≠ text := by
  intro heq
  have hlabel : 0 < label.toList.countP (!Text.isBlank ·) := by
    simpa [List.countP_pos_iff] using h
  have hcount := congrArg (fun s ↦ s.toList.countP (!Text.isBlank ·)) heq
  simp only [String.toList_append, Text.toList_trimmed, List.countP_append,
    Text.countP_trimmedChars] at hcount
  omega

/-- What is quoted first, behind text without an opening quotation mark. -/
theorem quoted?_of_notMem {u : List Char} (hu : openingQuote ∉ u) (d w : List Char) :
    quoted? (u ++ openingQuote :: (d ++ closingQuote :: w)) =
      some (d.takeWhile (· ≠ closingQuote)) := by
  have hdrop : (u ++ openingQuote :: (d ++ closingQuote :: w)).dropWhile (· ≠ openingQuote) =
      openingQuote :: (d ++ closingQuote :: w) := by
    rw [List.dropWhile_append_of_pos, List.dropWhile_cons_of_neg (by simp)]
    intro c hc
    exact decide_eq_true fun h ↦ hu (h ▸ hc)
  rw [quoted?, hdrop]
  simp only [List.mem_append, List.mem_cons, true_or, or_true, if_true]
  rw [Text.takeWhile_append_cons (by simp)]

/-- Trimming leaves what is quoted, as long as something visible stands in front of it. -/
theorem quoted?_trimmedChars {c : Char} (hc : Text.isBlank c = false) {u m : List Char}
    (hu : openingQuote ∉ u ++ c :: m) (d w : List Char) :
    quoted? (Text.trimmedChars (u ++ c :: (m ++ openingQuote :: d ++ closingQuote :: w))) =
      some (d.takeWhile (· ≠ closingQuote)) := by
  have hfront : openingQuote ∉ u.dropWhile Text.isBlank ++ c :: m := by
    simp only [List.mem_append] at hu ⊢
    exact fun h ↦ hu (h.imp_left fun h ↦ (List.dropWhile_sublist _).subset h)
  rw [Text.trimmedChars_around hc (by decide),
    ← quoted?_of_notMem hfront d (w.reverse.dropWhile Text.isBlank).reverse]
  simp only [List.append_assoc, List.cons_append]

/-- A path is read back as far as it is shown before its first closing quotation mark. -/
theorem ofExitCode?_notACharacterDevice {before : String} (hb : openingQuote ∉ before.toList)
    (p : Path) (after : String) :
    ofExitCode? (notACharacterDevice p).exitCode
        (before ++ (notACharacterDevice p).message ++ after) =
      some (.notACharacterDevice
        (.ofText (String.ofList (p.display.toList.takeWhile (· ≠ closingQuote))))) := by
  have htext : (before ++ (notACharacterDevice p).message ++ after).toList = before.toList ++
      'f' :: (['o', 'u', 'n', 'd', ' '] ++ openingQuote :: p.display.toList ++
        closingQuote :: (" not to be a character device".toList ++ after.toList)) := by
    have hmessage : (notACharacterDevice p).message =
        "found `" ++ p.display ++ "' not to be a character device" := rfl
    simp [hmessage, openingQuote, closingQuote]
  have hfront : openingQuote ∉ before.toList ++ ['f', 'o', 'u', 'n', 'd', ' '] := by
    rw [List.mem_append, not_or]
    exact ⟨hb, by decide⟩
  simp only [exitCode, ofExitCode?, Text.toList_trimmed, htext,
    quoted?_trimmedChars (by decide) hfront, Option.getD_some]
  rfl

/-- Failures that are the same in the caller's sense are recoverable together. -/
theorem recoverable_of_same {f e : Error} (h : f.same e) (hf : f.Recoverable) : e.Recoverable := by
  cases f with
  | notPrivileged => exact of_decide_eq_true h ▸ hf
  | notACharacterDevice q =>
    cases e with
    | notACharacterDevice p => exact plain_of_components (of_decide_eq_true h).symm hf
    | _ => simp [same] at h
  | _ => exact hf.elim

/-- A failure is the same as itself. -/
theorem same_self (e : Error) : e.same e := by
  cases e <;> simp [same]

/-- A failure that cannot be rebuilt, and is not, is rebuilt exactly if it can be. -/
theorem eq_iff_of_not_same {f e : Error} (hf : ¬f.same e) (he : ¬e.Recoverable) :
    (f = e ↔ e.Recoverable) ∧ (f.same e ↔ e.Recoverable) :=
  ⟨iff_of_false (fun h ↦ hf (h ▸ same_self e)) he, iff_of_false hf he⟩

/-- A text cut at its first closing quotation mark can be quoted. -/
theorem plain_ofText_takeWhile (cs : List Char) :
    Plain (Path.ofText (String.ofList (cs.takeWhile (· ≠ closingQuote)))).bytes := by
  refine ⟨_, rfl, fun c hc ↦ ?_⟩
  rw [String.toList_ofList] at hc
  simpa using List.mem_takeWhile_imp hc

/-- A path that is cut where it shows its first closing quotation mark is the same exactly if it can
be quoted. -/
theorem rebuilt_path_iff (p : Path) :
    let rebuilt := notACharacterDevice
      (.ofText (String.ofList (p.display.toList.takeWhile (· ≠ closingQuote))))
    (rebuilt = notACharacterDevice p ↔ (notACharacterDevice p).Recoverable) ∧
      (rebuilt.same (notACharacterDevice p) ↔ (notACharacterDevice p).Recoverable) := by
  intro rebuilt
  have hrebuilt : rebuilt.Recoverable := plain_ofText_takeWhile _
  have hkept (h : (notACharacterDevice p).Recoverable) : rebuilt = notACharacterDevice p := by
    obtain ⟨t, ht, hplain⟩ := h
    have htake : p.display.toList.takeWhile (· ≠ closingQuote) = t.toList := by
      rw [Path.display, ht, Utf8.decodeLossy_encode]
      exact List.takeWhile_eq_self_iff.2 fun c hc ↦ decide_eq_true (hplain c hc)
    have hpath : Path.ofText t = p := congrArg Path.mk ht.symm
    change notACharacterDevice _ = _
    rw [htake, String.ofList_toList, hpath]
  refine ⟨⟨fun h ↦ h ▸ hrebuilt, hkept⟩, ⟨fun h ↦ recoverable_of_same h hrebuilt, fun h ↦ ?_⟩⟩
  rw [hkept h]
  exact same_self _

/-- What each code with more to say makes of the text printed: all of it is the text of the failure,
or a path is sought in it. -/
theorem ofExitCode?_of_text (diagnostic : String) :
    ofExitCode? 1 diagnostic = some (.invalidArguments (Text.trimmed diagnostic)) ∧
    ofExitCode? 3 diagnostic = some (.deviceResolutionFailed
      ("helper exited with status 3: " ++ Text.trimmed diagnostic)) ∧
    (∃ p, ofExitCode? 4 diagnostic = some (.notACharacterDevice p)) ∧
    ofExitCode? 5 diagnostic = some (.permissionChangeFailed ⟨[]⟩ (Text.trimmed diagnostic)) :=
  ⟨rfl, rfl, ⟨_, rfl⟩, rfl⟩

/-- The caller learns the kind of a failure from the exit code, whatever is printed around it, and
success from the code 0 alone. With no quotation mark printed before, the failure it rebuilds is
the one that happened, in its fields or in the caller's sense, exactly if that names nothing or a
path in UTF-8 without an apostrophe; any other path comes back as its lossy text up to the first
apostrophe. -/
theorem failure_rebuilt (e : Error) (before after : String) :
    (∀ (code : Int) (diagnostic : String), ofExitCode? code diagnostic = none ↔ code = 0) ∧
    ∃ f, ofExitCode? e.exitCode (before ++ e.message ++ after) = some f ∧ f.kind = e.kind ∧
      (openingQuote ∉ before.toList →
        ((f = e ↔ e.Recoverable) ∧ (f.same e ↔ e.Recoverable)) ∧
        ∀ p, e = .notACharacterDevice p → f = .notACharacterDevice
          (.ofText (String.ofList (p.display.toList.takeWhile (· ≠ closingQuote))))) := by
  refine ⟨fun _ _ ↦ ofExitCode?_eq_none_iff, ?_⟩
  obtain ⟨hone, hthree, ⟨q, hfour⟩, hfive⟩ := ofExitCode?_of_text (before ++ e.message ++ after)
  cases e with
  | invalidArguments usage =>
    refine ⟨_, hone, rfl, fun _ ↦ ⟨eq_iff_of_not_same (fun h ↦ ?_) id, fun _ h ↦ by cases h⟩⟩
    injection of_decide_eq_true h with h
    exact append_trimmed_ne "invalid arguments: " ⟨'i', by simp, by decide⟩ "" _ _ _
      (by rwa [String.empty_append])
  | notPrivileged =>
    exact ⟨_, rfl, rfl, fun _ ↦ ⟨⟨iff_of_true rfl trivial, iff_of_true rfl trivial⟩,
      fun _ h ↦ by cases h⟩⟩
  | deviceResolutionFailed reason =>
    refine ⟨_, hthree, rfl, fun _ ↦ ⟨eq_iff_of_not_same (fun h ↦ ?_) id, fun _ h ↦ by cases h⟩⟩
    injection of_decide_eq_true h with h
    exact append_trimmed_ne "cannot determine the name of device: " ⟨'c', by simp, by decide⟩
      "helper exited with status 3: " _ _ _ h
  | notACharacterDevice p =>
    by_cases hb : openingQuote ∈ before.toList
    · exact ⟨_, hfour, rfl, fun h ↦ absurd hb h⟩
    · refine ⟨_, ofExitCode?_notACharacterDevice hb p after, by simp only [kind], fun _ ↦ ?_⟩
      refine ⟨rebuilt_path_iff p, fun r hr ↦ ?_⟩
      rw [notACharacterDevice.inj hr]
  | permissionChangeFailed p reason =>
    refine ⟨_, hfive, rfl, fun _ ↦ ⟨eq_iff_of_not_same (fun h ↦ ?_) id, fun _ h ↦ by cases h⟩⟩
    exact append_trimmed_ne ("cannot change permissions of " ++ p.display ++ ": ")
      ⟨'c', by simp, by decide⟩ "" _ _ _
      (by rw [String.empty_append]; exact (of_decide_eq_true h).2)

/-- An apostrophe cuts a path short, and the lines around the wording do not matter. -/
theorem failure_rebuilt_cut_short :
    openingQuote ∉ "log:\n".toList ∧
    ofExitCode? 4 ("log:\n" ++ (notACharacterDevice (.ofText "/dev/it's")).message ++ "\n") =
      some (.notACharacterDevice (.ofText "/dev/it")) ∧
    (notACharacterDevice (.ofText "/dev/it")).same (.notACharacterDevice (.ofText "/dev/it's")) =
      false := by
  have hlog : openingQuote ∉ "log:\n".toList := by decide
  obtain ⟨-, f, hf, -, h⟩ :=
    failure_rebuilt (.notACharacterDevice (.ofText "/dev/it's")) "log:\n" "\n"
  have hcut := (h hlog).2 _ rfl
  have htake : (Path.ofText "/dev/it's").display.toList.takeWhile (· ≠ closingQuote) =
      "/dev/it".toList := by
    rw [Path.display, Path.ofText, Utf8.decodeLossy_encode]
    decide
  rw [htake, String.ofList_toList] at hcut
  exact ⟨hlog, hcut ▸ hf, by decide⟩

end Broker.Error

end PtyHost

import PtyHost.Path

/-!
# The home directory

A path may begin with a tilde, which stands for the home directory.
-/

namespace PtyHost

/-- The path that a text stands for: a tilde alone, or one in front of a slash, is replaced by the
home directory, if there is one. -/
def expandTilde (home : Option Path) (text : String) : Path :=
  match home, text.toList with
  | some home, ['~'] => home
  | some home, '~' :: '/' :: rest => home.join (.ofText (String.ofList rest))
  | _, _ => .ofText text

end PtyHost

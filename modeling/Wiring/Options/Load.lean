import Wiring.Options.Environment
import Wiring.Options.Toml

/-!
# Loading options

Options come from a file, if there is one, and from the environment, which wins over the file.
-/

namespace Wiring

/-- The options given by the text of a file and by variables of the environment; nothing if the
file is malformed or a value does not fit its option. -/
def Options.load? (file : Option String) (given : List (String × String)) : Option Options := do
  let fromFile ←
    match file with
    | some text => Settings.Toml.read? text
    | none => some []
  (fromFile ++ Settings.Environment.read given : Settings).options?

end Wiring

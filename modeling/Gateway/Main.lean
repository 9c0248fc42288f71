import Gateway.App.CommandLine

/-! The command line. -/
namespace Gateway

/-- The file that the arguments name, if it can be read, where the program is called from. -/
def readFiles (args : List String) : IO Files := do
  let nothing : Files := ⟨[], []⟩
  match App.Invocation.parse args with
  | .ok (.run (some path)) =>
    try
      let content ← IO.FS.readBinFile path
      return nothing.put (Text.Utf8.encode path) (.file content.toList 0)
    catch _ => return nothing
  | _ => return nothing

end Gateway

def main (args : List String) : IO UInt32 := do
  let path := (← IO.getEnv "PATH").getD ""
  let outcome := Gateway.App.call args (.new (← Gateway.readFiles args) [("PATH", path)]) fun _ => none
  IO.eprint outcome.stderr
  return outcome.code.toUInt32

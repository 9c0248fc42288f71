import Gateway.Config.Settings

/-! The environment of the application. -/
namespace Gateway.App

/-- Variables by name; a name occurs once. -/
abbrev Environment := List (String × String)

/-- Sets a variable in its place, or adds it. -/
def Environment.set (env : Environment) (name value : String) : Environment :=
  if env.any (·.1 == name) then env.map fun e => if e.1 == name then (name, value) else e
  else env ++ [(name, value)]

/-- The gateway's own variables, the port unless the application listens on a socket, and then what
is set for it. -/
def appEnvironment (parent : Environment) (app : Config.AppSettings) : Environment :=
  let ported :=
    if app.socket = "" && app.port != 0 then parent.set "PORT" (toString app.port.toNat) else parent
  app.env.foldl (fun env (name, value) => env.set name value) ported

end Gateway.App

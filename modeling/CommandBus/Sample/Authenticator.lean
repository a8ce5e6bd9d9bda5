import CommandBus.Access.Authenticator
import CommandBus.Sample.Command

/-! # Scripted authenticators

Authenticators for trying out a chain: each logs that it was asked, and answers as its script
says. -/

namespace CommandBus.Sample

/-- What a scripted authenticator answers. -/
inductive Answer where
  | identity (identity : Identity)
  | none
  /-- A user, named by a credential. -/
  | caller (key : String)
  | bad
  | malformed (reason : String)

namespace Answer

def label : Answer → String
  | .identity _ => "identity"
  | .none => "none"
  | .caller _ => "caller"
  | .bad => "bad"
  | .malformed _ => "malformed"

/-- The answer for a context. -/
def reply (ctx : Context) : Answer → Authentication
  | .identity i => .ok (some i)
  | .none => .ok Option.none
  | .caller key => .ok ((ctx.credential? key).map fun name => Identity.make name ["ROLE_USER"])
  | .bad => .error .badCredentials
  | .malformed reason => .error (.malformed reason)

/-- The authenticator of a script. -/
def authenticator (answer : Answer) : Authenticator Log :=
  fun ctx log => (answer.reply ctx, ("strategy:" ++ answer.label) :: log)

end Answer

end CommandBus.Sample

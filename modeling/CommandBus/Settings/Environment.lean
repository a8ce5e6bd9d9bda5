/-! # The environment of a process

Settings are looked up by name.  A variable that is not set has no value, which is not the same
as an empty one. -/

namespace CommandBus

/-- The values of variables by name. -/
abbrev Environment := String → Option String

namespace Environment

/-- The value of a variable, or what stands for it when it is not set. -/
def getD (env : Environment) (key fallback : String) : String := (env key).getD fallback

end Environment

end CommandBus

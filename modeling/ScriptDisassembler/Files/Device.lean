import ScriptDisassembler.Error

/-!
# Devices

A path can lead to something that is no file: a device that swallows or never runs dry, the terminal,
or a channel of the running program.  A device has the size zero, so nothing of it can be mapped.
-/

namespace ScriptDisassembler

/-- A channel on which a program puts out text. -/
inductive Channel
  /-- The results. -/
  | output
  /-- The reports. -/
  | errors
deriving DecidableEq, Repr

/-- What is neither a file nor a folder. -/
inductive Device
  /-- Always empty, and keeps nothing. -/
  | null
  /-- Never runs dry, and keeps nothing. -/
  | endless
  /-- Never runs dry, and has no room. -/
  | full
  /-- A channel of the running program. -/
  | channel (channel : Channel)
  /-- The terminal of the program, which has none. -/
  | terminal
deriving DecidableEq, Repr

namespace Device

/-- All bytes that come from a device.  Those of an endless one, and of a channel, on which the
program itself might still write, never are complete. -/
def read : Device → Except FileError (Array UInt8)
  | null => .ok #[]
  | endless | full | channel _ => .error .endless
  | terminal => .error .noTerminal

/-- The bytes of a device that can be mapped into memory. -/
def map : Device → Except FileError (Array UInt8)
  | null | endless | full | channel _ => .ok #[]
  | terminal => .error .noTerminal

/-- Give bytes to a device.  The answer is the channel on which they are to be put out, if any. -/
def write (content : Array UInt8) : Device → Except FileError (Option Channel)
  | null | endless => .ok none
  | full => if content.isEmpty then .ok none else .error .noSpace
  | channel target => .ok (some target)
  | terminal => .error .noTerminal

end Device

end ScriptDisassembler

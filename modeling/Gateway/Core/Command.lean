import Gateway.Model.Ids

/-! @src core/Command.h, core/CommandHandler.h, core/CommandRunner.cpp, commands/ | name:Commands |
    family:data

    The commands the dispatcher and the broker tell apart (by `Castable::is`, so by their exact class)
    and the task that runs a handler on one. `V` is the type of measured values, a C++ `double`; times
    are `Poco::Timespan`s, in microseconds. -/

namespace BeeeOn

inductive Command (V : Type) where
  | gatewayListen (duration : ℤ)
  | deviceSetValue (deviceID : DeviceID) (moduleID : ModuleID) (value : V) (timeout : ℤ)
  | deviceUnpair (deviceID : DeviceID)
  | serverDeviceList (devicePrefix : DevicePrefix)
  | serverLastValue (deviceID : DeviceID) (moduleID : ModuleID)
  /-- any other subclass of `Command` -/
  | other (name : String)
  deriving DecidableEq, Repr

/-- A registered `CommandHandler`: the object's identity and its `accept`. -/
structure CommandHandler (V : Type) where
  id : ℕ
  accept : Command V → Bool

/-- `CommandRunner`: the task that will call `handler.handle(cmd, answer)`. -/
structure CommandRunner (V : Type) where
  cmd : Command V
  answer : ℕ
  handler : ℕ
  deriving DecidableEq, Repr

end BeeeOn

/-
**What can be configured.**

* `Config`: the largest input that is decoded, and the version byte of derived addresses.
* `Config.validate`: a limit of zero would refuse everything and is refused itself.
-/

import Utxo.Wire.Format

namespace Utxo

/-- The version byte of addresses for which none was chosen. -/
def defaultAddressVersion : UInt8 := 0

/-- A configuration. -/
structure Config where
  maxDecodeSize : UInt64
  addressVersion : UInt8
deriving DecidableEq, Repr

namespace Config

/-- Why a configuration cannot be used. -/
inductive Fault
  | unreadable
  | zeroLimit
deriving DecidableEq, Repr

/-- What a caller is told. -/
def Fault.message : Fault → String
  | .unreadable => "not the JSON form of a configuration"
  | .zeroLimit => "max_decode_size must be greater than zero"

/-- What holds where nothing was chosen. -/
def default : Config := ⟨UInt64.ofNat defaultDecodeLimit, defaultAddressVersion⟩

instance : Inhabited Config := ⟨default⟩

/-- Refuses a limit of zero. -/
def validate (config : Config) : Except Fault Unit :=
  if config.maxDecodeSize = 0 then .error .zeroLimit else .ok ()

end Config

end Utxo

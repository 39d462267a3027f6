/-
**The JSON form of a configuration.**

Absent fields take their defaults. The form alone accepts a limit of zero; a configuration that is
read to be used (`Config.ofString`) does not have one.
-/

import Utxo.Config
import Utxo.Json.Record

namespace Utxo.Config

open Json (Record)

/-- The fields of a configuration. -/
def record : Record Config :=
  ((Record.field "max_decode_size" (some default.maxDecodeSize)).and
    (Record.field "address_version" (some default.addressVersion))).convert
    (fun (maxDecodeSize, addressVersion) => ⟨maxDecodeSize, addressVersion⟩)
    (fun config => (config.maxDecodeSize, config.addressVersion))

instance : JsonForm Config := ⟨record.toJson, record.ofJson⟩

/-- The usable configuration that a text holds. -/
def ofString (text : String) : Except Fault Config :=
  match JsonForm.ofString text with
  | .ok config => do
    config.validate
    return config
  | .error _ => .error .unreadable

/-- The configuration as text on indented lines. -/
def render (config : Config) : String := JsonForm.toPrettyString config

end Utxo.Config

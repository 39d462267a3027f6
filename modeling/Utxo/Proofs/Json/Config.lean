/-
**A configuration survives JSON, and a limit of zero does not get through.**

* `Config.jsonForm_lawful`: the form of a configuration is read back, so that its text is read as it unless
  its limit is zero (`ofString_render`).
* `Config.Chooses`: what an object chooses, field by field, wherever its fields stand;
  `ofJson_object_eq_ok_iff`: it is read as these choices, with defaults for the fields that it leaves out.
* `Config.json_survives`: all of it for the texts of callers.
-/

import Utxo.Json.Config
import Utxo.Proofs.Json.Members
import Utxo.Proofs.Json.Pretty
import Utxo.Validator

namespace Utxo.Config

open Json (Document KeysAreText Record Text valuesAt)
open Json.Record (ofJson_and_eq_ok_iff ofJson_convert_eq_ok_iff)
open Json.Record.Lawful (field_and)
open JsonForm (exact_uint8 exact_uint64 lawful_uint8 lawful_uint64)

/-! ### Configurations are read back -/

theorem record_lawful : record.Lawful ["max_decode_size", "address_version"] :=
  (field_and lawful_uint64 (by decide) <| .field lawful_uint8 (by decide) _).convert fun _ => rfl

theorem jsonForm_lawful : JsonForm.Lawful Config :=
  ⟨record_lawful.isPlain_toJson, record_lawful.ofJson_toJson⟩

variable {config : Config} {text : String}

/-- What was read is checked. -/
theorem ofString_of_read (read : JsonForm.ofString text = .ok config) :
    ofString text = if config.maxDecodeSize = 0 then .error .zeroLimit else .ok config := by
  unfold ofString validate
  rw [read]
  by_cases zero : config.maxDecodeSize = 0
  · simp only [zero, if_true]
    rfl
  · simp only [zero, if_false]
    rfl

/-- A text holds a usable configuration if it holds one with a limit. -/
theorem ofString_eq_ok_iff : ofString text = .ok config ↔
    JsonForm.ofString text = .ok config ∧ config.maxDecodeSize ≠ 0 := by
  cases read : JsonForm.ofString (α := Config) text with
  | error fault =>
    have unreadable : ofString text = .error .unreadable := by
      unfold ofString
      rw [read]
    simp [unreadable]
  | ok other =>
    rw [ofString_of_read read]
    by_cases zero : other.maxDecodeSize = 0
    · rw [if_pos zero]
      refine ⟨nofun, fun same => ?_⟩
      cases same.1
      exact absurd zero same.2
    · rw [if_neg zero]
      refine ⟨fun same => ?_, fun same => ?_⟩
      · cases same
        exact ⟨rfl, zero⟩
      · cases same.1
        rfl

theorem ofString_render (config : Config) :
    ofString config.render = if config.maxDecodeSize = 0 then .error .zeroLimit else .ok config :=
  ofString_of_read (jsonForm_lawful.ofString_toPrettyString config)

/-- A configuration with a limit makes a validator. -/
theorem exists_validator (positive : config.maxDecodeSize ≠ 0) :
    ∃ validator, Validator.ofConfig config = .ok validator ∧ validator.config = config :=
  ⟨⟨config, positive⟩, dif_pos positive, rfl⟩

/-! ### What an object chooses -/

/-- **What an object chooses.** Its keys are texts, which a key with half of a surrogate pair is not. Under the
name of a field stands, once, the integer that is chosen for it, or nothing stands there; no integer is a
zero with a sign, `-0`, nor a number with a fraction or an exponent. A limit of zero cannot be chosen. -/
structure Chooses (members : List (Text × Json)) (limit? : Option UInt64) (version? : Option UInt8) :
    Prop where
  keys : KeysAreText members
  limit : valuesAt "max_decode_size" members = limit?.toList.map JsonForm.toJson
  version : valuesAt "address_version" members = version?.toList.map JsonForm.toJson
  positive : limit? ≠ some 0

/-- The configuration of these choices. -/
def choose (limit? : Option UInt64) (version? : Option UInt8) : Config :=
  ⟨limit?.getD default.maxDecodeSize, version?.getD default.addressVersion⟩

theorem maxDecodeSize_choose_iff (limit? : Option UInt64) (version? : Option UInt8) :
    (choose limit? version?).maxDecodeSize ≠ 0 ↔ limit? ≠ some 0 := by
  cases limit? with
  | none =>
    have positive : default.maxDecodeSize ≠ 0 := by decide
    exact iff_of_true positive nofun
  | some limit => simp [choose]

theorem fields_apart :
    (Record.field "max_decode_size" (some default.maxDecodeSize)).Apart
      (Record.field "address_version" (some default.addressVersion)) :=
  (Record.Lawful.field lawful_uint64 (by decide) _).apart (.field lawful_uint8 (by decide) _) (by decide)

/-- **Fields are read where their names stand**, whatever stands around them. -/
theorem ofJson_object_eq_ok_iff {members : List (Text × Json)}
    (intact : Json.membersAreIntact members = true) :
    JsonForm.ofJson (.object members) = .ok config ∧ config.maxDecodeSize ≠ 0 ↔
      ∃ limit? version?, Chooses members limit? version? ∧ config = choose limit? version? := by
  refine ⟨fun ⟨read, positive⟩ => ?_, fun ⟨limit?, version?, chooses, same⟩ => ?_⟩
  · obtain ⟨⟨limit, version⟩, fields, rfl⟩ := ofJson_convert_eq_ok_iff.mp read
    obtain ⟨limitRead, versionRead⟩ := (ofJson_and_eq_ok_iff fields_apart intact).mp fields
    obtain ⟨keys, limit?, limitHere, rfl⟩ := (exact_uint64.ofJson_field_eq_ok_iff intact).mp limitRead
    obtain ⟨-, version?, versionHere, rfl⟩ := (exact_uint8.ofJson_field_eq_ok_iff intact).mp versionRead
    have chosen : limit? ≠ some 0 := (maxDecodeSize_choose_iff limit? version?).mp positive
    exact ⟨limit?, version?, ⟨keys, limitHere, versionHere, chosen⟩, rfl⟩
  · rw [same]
    refine ⟨ofJson_convert_eq_ok_iff.mpr ⟨(limit?.getD _, version?.getD _),
      (ofJson_and_eq_ok_iff fields_apart intact).mpr ⟨?_, ?_⟩, rfl⟩,
      (maxDecodeSize_choose_iff limit? version?).mpr chooses.positive⟩
    · exact (exact_uint64.ofJson_field_eq_ok_iff intact).mpr ⟨chooses.keys, limit?, chooses.limit, rfl⟩
    · exact (exact_uint8.ofJson_field_eq_ok_iff intact).mpr
        ⟨chooses.keys, version?, chooses.version, rfl⟩

/-- An object that is read to its end is read as its choices. -/
theorem ofString_object_eq_ok_iff {members : List (Text × Json)}
    (held : Document.ofString text = ⟨.object members, true⟩) : ofString text = .ok config ↔
      ∃ limit? version?, Chooses members limit? version? ∧ config = choose limit? version? := by
  have whole : (Document.ofString text).isWhole = true := by rw [held]
  have intact := Document.isIntact_of_isWhole whole
  rw [held] at intact
  rw [ofString_eq_ok_iff, JsonForm.ofString_eq_ok_iff, held]
  simp only [true_and]
  exact ofJson_object_eq_ok_iff intact

/-- Other members are skipped, and a key may be written with units. A field that comes twice, or with a
fraction, is refused. -/
example :
    ofString "\x7b \"note\": [null, 1e999], \"\\u0061ddress_version\": 111 \x7d" =
        .ok ⟨default.maxDecodeSize, 111⟩ ∧
      ofString "\x7b\"max_decode_size\": 7, \"max_decode_size\": 7\x7d" = .error .unreadable ∧
      ofString "\x7b\"max_decode_size\": 7.0\x7d" = .error .unreadable := by decide +kernel

/-- **A configuration survives JSON, and a limit of zero does not get through.** Every configuration is read
from its own text, unless its limit is zero: then it is refused as its own check refuses it. Whatever text a
configuration is read from, it has a limit, makes a validator, and is read again from its own text. An
object is read just where it makes its choices field by field, in any order and among any other members,
and then as these choices, with the default of each field that it leaves out. Left out from these objects,
and so refused, is one with a key that has half of a surrogate pair, and one with `-0`, `7.0` or `1e3` as the
value of a field: none of them is read as an integer. -/
theorem json_survives :
    (∀ config : Config,
      (0 < config.maxDecodeSize.toNat → ofString config.render = .ok config) ∧
        (config.maxDecodeSize.toNat = 0 →
          config.validate = .error .zeroLimit ∧ ofString config.render = .error .zeroLimit)) ∧
    (∀ (text : String) (config : Config), ofString text = .ok config →
      1 ≤ config.maxDecodeSize.toNat ∧
        (∃ validator, Validator.ofConfig config = .ok validator ∧ validator.config = config) ∧
        ofString config.render = .ok config) ∧
    ∀ (text : String) (members : List (Text × Json)), Document.ofString text = ⟨.object members, true⟩ →
      ∀ config : Config, ofString text = .ok config ↔
        ∃ limit? version?, Chooses members limit? version? ∧ config = choose limit? version? := by
  have pos_iff : ∀ config : Config, 0 < config.maxDecodeSize.toNat ↔ config.maxDecodeSize ≠ 0 := by
    intro config
    rw [Nat.pos_iff_ne_zero, ne_eq, ne_eq, ← UInt64.toNat_inj]
    rfl
  refine ⟨fun config => ⟨fun positive => ?_, fun zero => ?_⟩, fun text config read => ?_,
    fun text members held config => ofString_object_eq_ok_iff held⟩
  · rw [ofString_render, if_neg ((pos_iff config).mp positive)]
  · have zero : config.maxDecodeSize = 0 := UInt64.toNat_inj.mp zero
    unfold validate
    rw [ofString_render, if_pos zero, if_pos zero]
    exact ⟨rfl, rfl⟩
  · have positive := (ofString_eq_ok_iff.mp read).2
    refine ⟨(pos_iff config).mpr positive, exists_validator positive, ?_⟩
    rw [ofString_render, if_neg positive]

/-- An object with its fields in the other order, and with one of another name between them. -/
def scattered : List (Text × Json) :=
  [(Text.ofString "address_version", JsonForm.ofInt 111),
    (Text.ofString "limits", .object [(Text.ofString "max_decode_size", .null)]),
    (Text.ofString "max_decode_size", JsonForm.ofInt 65536)]

/-- It is read as the configuration that it chooses, which is read again from its own text; without its limit
this configuration is refused. -/
theorem json_survives_scattered :
    ofString (String.ofList ((Json.object scattered).pretty 0)) = .ok ⟨65536, 111⟩ ∧
      ofString (render ⟨65536, 111⟩) = .ok ⟨65536, 111⟩ ∧
      (1 ≤ (⟨65536, 111⟩ : Config).maxDecodeSize.toNat ∧
        ∃ validator, Validator.ofConfig ⟨65536, 111⟩ = .ok validator) ∧
      ofString (render ⟨0, 111⟩) = .error .zeroLimit := by
  obtain ⟨survives, sound, chosen⟩ := json_survives
  have chooses : Chooses scattered (some 65536) (some 111) :=
    { keys := by simp [KeysAreText, scattered, Text.toString?_ofString]
      limit := by simp [valuesAt, scattered, Text.toString?_ofString]; rfl
      version := by simp [valuesAt, scattered, Text.toString?_ofString]; rfl
      positive := by decide }
  have held := Document.ofString_pretty (show (Json.object scattered).isPlain = true by decide +kernel) 0
  have read := (chosen _ scattered held ⟨65536, 111⟩).mpr ⟨_, _, chooses, rfl⟩
  obtain ⟨limited, ⟨validator, made, -⟩, again⟩ := sound _ _ read
  exact ⟨read, (survives ⟨65536, 111⟩).1 (by decide), ⟨limited, validator, made⟩,
    ((survives ⟨0, 111⟩).2 rfl).2⟩

end Utxo.Config

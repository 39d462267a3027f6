/-
**JSON brings in no value of the ledger that its byte form cannot carry.**

* `TxInput.record_lawful` up to `Block.record_lawful`: the records of the ledger are written and read
  back, so that every value is read from its own text.
* `TxInput.ScriptPlace` up to `Block.ScriptPlace`: where the scripts of a value stand in its JSON form;
  `TxInput.fits_of_ofJson` up to `Block.fits_of_ofJson`: what stands there in a value that is read is no
  longer than a script.
* `JsonForm.Contained`, `Wire.CarriesJson`: what a caller gets; `json_contained`: for each type.
-/

import Utxo.Json.Ledger
import Utxo.Proofs.Json.Place
import Utxo.Proofs.Ledger.Forms

namespace Utxo

open Json (Record FieldPlace ElementPlace)
open Json.Record.Lawful (field_and)
open JsonForm (lawful_fixedBytes lawful_int32 lawful_int64 lawful_uint32 lawful_varBytes)

/-! ### Values are read back -/

theorem TxInput.record_lawful : record.Lawful
    ["prev_tx_hash", "output_index", "unlocking_script", "sequence"] :=
  (field_and (lawful_fixedBytes 32) (by decide) <| field_and lawful_uint32 (by decide) <|
    field_and lawful_varBytes (by decide) <| .field lawful_uint32 (by decide) none).convert fun _ => rfl

theorem TxInput.jsonForm_lawful : JsonForm.Lawful TxInput :=
  ⟨record_lawful.isPlain_toJson, record_lawful.ofJson_toJson⟩

theorem TxOutput.record_lawful : record.Lawful ["value", "locking_script"] :=
  (field_and lawful_int32 (by decide) <| .field lawful_varBytes (by decide) none).convert fun _ => rfl

theorem TxOutput.jsonForm_lawful : JsonForm.Lawful TxOutput :=
  ⟨record_lawful.isPlain_toJson, record_lawful.ofJson_toJson⟩

theorem Transaction.record_lawful : record.Lawful ["version", "inputs", "outputs", "lock_time"] :=
  (field_and lawful_int32 (by decide) <| field_and TxInput.jsonForm_lawful.list (by decide) <|
    field_and TxOutput.jsonForm_lawful.list (by decide) <| .field lawful_int32 (by decide) none).convert
    fun _ => rfl

theorem Transaction.jsonForm_lawful : JsonForm.Lawful Transaction :=
  ⟨record_lawful.isPlain_toJson, record_lawful.ofJson_toJson⟩

theorem BlockHeader.record_lawful : record.Lawful
    ["version", "prev_block_hash", "merkle_root", "timestamp", "difficulty_target", "nonce"] :=
  (field_and lawful_int32 (by decide) <| field_and (lawful_fixedBytes 32) (by decide) <|
    field_and (lawful_fixedBytes 32) (by decide) <| field_and lawful_int64 (by decide) <|
    field_and lawful_int32 (by decide) <| .field lawful_int32 (by decide) none).convert fun _ => rfl

theorem BlockHeader.jsonForm_lawful : JsonForm.Lawful BlockHeader :=
  ⟨record_lawful.isPlain_toJson, record_lawful.ofJson_toJson⟩

theorem Block.record_lawful : record.Lawful ["size", "header", "transactions"] :=
  (field_and lawful_int32 (by decide) <| field_and BlockHeader.jsonForm_lawful (by decide) <|
    .field Transaction.jsonForm_lawful.list (by decide) none).convert fun _ => rfl

theorem Block.jsonForm_lawful : JsonForm.Lawful Block :=
  ⟨record_lawful.isPlain_toJson, record_lawful.ofJson_toJson⟩

/-! ### The places of scripts -/

/-- A list of more elements than a script has bytes. -/
def Json.IsOverlong (json : Json) : Prop := ∃ elements, json = .array elements ∧ 255 < elements.length

/-- A list of no more elements than a script may have bytes. -/
def Json.FitsScript (json : Json) : Prop := ∃ elements, json = .array elements ∧ elements.length ≤ 255

theorem Json.FitsScript.not_isOverlong {json : Json} (fits : json.FitsScript) : ¬ json.IsOverlong := by
  rintro ⟨elements, rfl, long⟩
  obtain ⟨_, ⟨⟩, short⟩ := fits
  exact Nat.not_lt.mpr short long

variable {json place : Json}

/-- A script is read from a list of its bytes. -/
theorem VarBytes.fits_of_ofJson {field : VarBytes} (read : JsonForm.ofJson json = .ok field) :
    json.FitsScript := by
  obtain ⟨bytes, listed, read⟩ := exceptBind_eq_ok_iff.mp read
  have short : bytes.length ≤ maxVarBytes := by
    by_contra long
    have refused : VarBytes.ofBytes bytes = .error ⟨bytes.length⟩ := dif_neg long
    rw [refused] at read
    cases read
  cases json with
  | array elements =>
    have length := (JsonForm.exists_ofJson_of_mem listed).1
    exact ⟨elements, rfl, length ▸ short⟩
  | _ => cases listed

namespace TxInput

/-- Where the script of an input stands. -/
def ScriptPlace : Json → Json → Prop := FieldPlace "unlocking_script" 2

theorem record_fieldAt : record.FieldAt "unlocking_script" 2
    fun json => ∃ script : VarBytes, JsonForm.ofJson json = .ok script :=
  (((Record.FieldAt.field "unlocking_script" none).first.behind (by decide)).behind (by decide)).convert

theorem fits_of_ofJson {input : TxInput} (read : JsonForm.ofJson json = .ok input)
    (here : ScriptPlace json place) : place.FitsScript := by
  obtain ⟨script, scriptRead⟩ := record_fieldAt.of_ofJson read here
  exact VarBytes.fits_of_ofJson scriptRead

end TxInput

namespace TxOutput

/-- Where the script of an output stands. -/
def ScriptPlace : Json → Json → Prop := FieldPlace "locking_script" 1

theorem record_fieldAt : record.FieldAt "locking_script" 1
    fun json => ∃ script : VarBytes, JsonForm.ofJson json = .ok script :=
  ((Record.FieldAt.field "locking_script" none).behind (by decide)).convert

theorem fits_of_ofJson {output : TxOutput} (read : JsonForm.ofJson json = .ok output)
    (here : ScriptPlace json place) : place.FitsScript := by
  obtain ⟨script, scriptRead⟩ := record_fieldAt.of_ofJson read here
  exact VarBytes.fits_of_ofJson scriptRead

end TxOutput

namespace Transaction

/-- Where the scripts of a transaction stand: those of its inputs and of its outputs. -/
inductive ScriptPlace : Json → Json → Prop
  | input {json list element place : Json} (inputs : FieldPlace "inputs" 1 json list)
      (here : ElementPlace list element) (script : TxInput.ScriptPlace element place) :
      ScriptPlace json place
  | output {json list element place : Json} (outputs : FieldPlace "outputs" 2 json list)
      (here : ElementPlace list element) (script : TxOutput.ScriptPlace element place) :
      ScriptPlace json place

theorem record_fieldAt_inputs : record.FieldAt "inputs" 1
    fun json => ∃ inputs : List TxInput, JsonForm.ofJson json = .ok inputs :=
  ((Record.FieldAt.field "inputs" none).first.behind (by decide)).convert

theorem record_fieldAt_outputs : record.FieldAt "outputs" 2
    fun json => ∃ outputs : List TxOutput, JsonForm.ofJson json = .ok outputs :=
  (((Record.FieldAt.field "outputs" none).first.behind (by decide)).behind (by decide)).convert

theorem fits_of_ofJson {transaction : Transaction} (read : JsonForm.ofJson json = .ok transaction)
    (here : ScriptPlace json place) : place.FitsScript := by
  cases here with
  | input inputs here script =>
    obtain ⟨values, listRead⟩ := record_fieldAt_inputs.of_ofJson read inputs
    obtain ⟨input, inputRead⟩ := JsonForm.exists_ofJson_of_element listRead here
    exact TxInput.fits_of_ofJson inputRead script
  | output outputs here script =>
    obtain ⟨values, listRead⟩ := record_fieldAt_outputs.of_ofJson read outputs
    obtain ⟨output, outputRead⟩ := JsonForm.exists_ofJson_of_element listRead here
    exact TxOutput.fits_of_ofJson outputRead script

/-- The scripts of the inputs, then those of the outputs. -/
def scripts (transaction : Transaction) : List VarBytes :=
  transaction.inputs.map TxInput.unlocking ++ transaction.outputs.map TxOutput.locking

end Transaction

namespace Block

/-- Where the scripts of a block stand: those of its transactions. -/
inductive ScriptPlace : Json → Json → Prop
  | transaction {json list element place : Json} (transactions : FieldPlace "transactions" 2 json list)
      (here : ElementPlace list element) (script : Transaction.ScriptPlace element place) :
      ScriptPlace json place

theorem record_fieldAt : record.FieldAt "transactions" 2
    fun json => ∃ transactions : List Transaction, JsonForm.ofJson json = .ok transactions :=
  (((Record.FieldAt.field "transactions" none).behind (by decide)).behind (by decide)).convert

theorem fits_of_ofJson {block : Block} (read : JsonForm.ofJson json = .ok block)
    (here : ScriptPlace json place) : place.FitsScript := by
  cases here with
  | transaction transactions here script =>
    obtain ⟨values, listRead⟩ := record_fieldAt.of_ofJson read transactions
    obtain ⟨transaction, transactionRead⟩ := JsonForm.exists_ofJson_of_element listRead here
    exact Transaction.fits_of_ofJson transactionRead script

/-- The scripts of the transactions. -/
def scripts (block : Block) : List VarBytes := block.transactions.flatMap Transaction.scripts

end Block

/-! ### What callers get -/

/-- **What JSON can bring in**, of a type with these scripts, which stand in these places. -/
structure JsonForm.Contained (α : Type) [JsonForm α] (scripts : α → List VarBytes)
    (ScriptPlace : Json → Json → Prop) : Prop where
  /-- A value that is read has short scripts, and so has the text that it is read from. -/
  short : ∀ {text : String} {value : α}, ofString text = .ok value →
    (∀ script ∈ scripts value, script.toBytes.length ≤ 255) ∧
      ∀ place, ScriptPlace (Json.Document.ofString text).value place → place.FitsScript
  /-- A value that is read is read again from its own text. -/
  again : ∀ {text : String} {value : α}, ofString text = .ok value →
    ofString (toCompactString value) = .ok value
  /-- A text with a longer list in the place of a script is refused. -/
  refused : ∀ {text : String} {place : Json}, ScriptPlace (Json.Document.ofString text).value place →
    place.IsOverlong → ∃ fault, ofString (α := α) text = .error fault
  /-- Every value is read from its own text. -/
  readBack : ∀ value : α, ofString (toCompactString value) = .ok value

theorem JsonForm.contained_of_lawful {α : Type} [JsonForm α] (lawful : Lawful α)
    (scripts : α → List VarBytes) {ScriptPlace : Json → Json → Prop}
    (fits : ∀ {json place : Json} {value : α}, ofJson json = .ok value → ScriptPlace json place →
      place.FitsScript) : Contained α scripts ScriptPlace where
  short read := ⟨fun script _ => script.length_le, fun _ here => fits (ofString_eq_ok_iff.mp read).2 here⟩
  again {_ value} _ := lawful.ofString_toCompactString value
  refused {text place} here overlong := by
    cases answer : ofString (α := α) text with
    | error fault => exact ⟨fault, rfl⟩
    | ok value => exact absurd overlong (fits (ofString_eq_ok_iff.mp answer).2 here).not_isOverlong
  readBack := lawful.ofString_toCompactString

/-- **What JSON brings in, the byte form carries**, within every limit that it does not exceed. -/
def Wire.CarriesJson (α : Type) [Wire α] [JsonForm α] : Prop :=
  ∀ {text : String} {value : α}, JsonForm.ofString text = .ok value → ∀ limit : UInt64,
    (encode value).length ≤ limit.toNat → decodeExact (encode value) limit.toNat = .ok value

theorem Wire.carriesJson_of_inverts {α : Type} [Wire α] [JsonForm α] {fits : α → Prop}
    (inverts : (decoder : Decoder α).Inverts encode fits)
    (fit : ∀ value : α, (encode value).length < UInt64.size → fits value) : CarriesJson α :=
  fun {_ value} _ limit short => (decodeExact_eq_ok_iff inverts).mpr
    ⟨fit value (Nat.lt_of_le_of_lt short limit.toNat_lt), short, rfl⟩

/-- **JSON brings in no value that the byte form cannot carry.** What is read has scripts of at most 255
bytes, its byte form is decoded as it, and its own text is read as it; and a text with more elements in
the place of a script is refused. Every value is read from its own text. -/
theorem json_contained :
    (JsonForm.Contained VarBytes (fun script => [script]) (fun json place => place = json) ∧
      JsonForm.Contained TxInput (fun input => [input.unlocking]) TxInput.ScriptPlace ∧
      JsonForm.Contained TxOutput (fun output => [output.locking]) TxOutput.ScriptPlace ∧
      JsonForm.Contained Transaction Transaction.scripts Transaction.ScriptPlace ∧
      JsonForm.Contained BlockHeader (fun _ => []) (fun _ _ => False) ∧
      JsonForm.Contained Block Block.scripts Block.ScriptPlace) ∧
    Wire.CarriesJson TxInput ∧ Wire.CarriesJson TxOutput ∧ Wire.CarriesJson Transaction ∧
      Wire.CarriesJson BlockHeader ∧ Wire.CarriesJson Block := by
  refine ⟨⟨?_, ?_, ?_, ?_, ?_, ?_⟩, ?_, ?_, ?_, ?_, ?_⟩
  · refine JsonForm.contained_of_lawful lawful_varBytes _ fun read same => ?_
    rw [same]
    exact VarBytes.fits_of_ofJson read
  · exact JsonForm.contained_of_lawful TxInput.jsonForm_lawful _ TxInput.fits_of_ofJson
  · exact JsonForm.contained_of_lawful TxOutput.jsonForm_lawful _ TxOutput.fits_of_ofJson
  · exact JsonForm.contained_of_lawful Transaction.jsonForm_lawful _ Transaction.fits_of_ofJson
  · exact JsonForm.contained_of_lawful BlockHeader.jsonForm_lawful _ fun _ none => none.elim
  · exact JsonForm.contained_of_lawful Block.jsonForm_lawful _ Block.fits_of_ofJson
  · exact Wire.carriesJson_of_inverts TxInput.decoder_inverts fun _ _ => trivial
  · exact Wire.carriesJson_of_inverts TxOutput.decoder_inverts fun _ _ => trivial
  · exact Wire.carriesJson_of_inverts Transaction.decoder_inverts fun _ =>
      Transaction.countable_of_length_lt
  · exact Wire.carriesJson_of_inverts BlockHeader.decoder_inverts fun _ _ => trivial
  · exact Wire.carriesJson_of_inverts Block.decoder_inverts fun _ => Block.countable_of_length_lt

/-- An output as the list of its fields, with one byte too many in its script. -/
def overlongOutput : Json :=
  .array [JsonForm.ofInt (-2), .array (List.replicate 256 (JsonForm.ofInt 0xac))]

/-- It is refused, while a transaction is read from its own text and carried by its byte form. -/
theorem json_contained_overlongOutput :
    (∃ fault, JsonForm.ofString (α := TxOutput) (String.ofList overlongOutput.compact) = .error fault) ∧
      JsonForm.ofString (JsonForm.toCompactString twoInputs) = .ok twoInputs ∧
      Wire.decodeExact twoInputs.encode 108 = .ok twoInputs := by
  obtain ⟨⟨-, -, outputs, transactions, -, -⟩, -, -, carried, -, -⟩ := json_contained
  have held := Json.Document.ofString_compact (show overlongOutput.isPlain = true by decide +kernel)
  have place : TxOutput.ScriptPlace (Json.Document.ofString (String.ofList overlongOutput.compact)).value
      (.array (List.replicate 256 (JsonForm.ofInt 0xac))) := by
    rw [held]
    exact .element rfl
  have overlong : (Json.array (List.replicate 256 (JsonForm.ofInt 0xac))).IsOverlong :=
    ⟨_, rfl, by rw [List.length_replicate]; decide⟩
  have read := transactions.readBack twoInputs
  exact ⟨outputs.refused place overlong, read, carried read 108 (by decide)⟩

end Utxo

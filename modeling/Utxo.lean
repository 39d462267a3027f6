import Utxo.Json.Config
import Utxo.Json.Ledger
import Utxo.Signature.Ecdsa
import Utxo.Validator
import Utxo.Proofs.Key.Address
import Utxo.Proofs.Ledger.Checking
import Utxo.Proofs.Ledger.Independence
import Utxo.Proofs.Script.Grammar
import Utxo.Proofs.Store.Blocks
import Utxo.Proofs.Script.Halting
import Utxo.Proofs.Script.Composition
import Utxo.Proofs.Ledger.TopDown
import Utxo.Proofs.Ledger.Collision
import Utxo.Proofs.Ledger.CountGuard
import Utxo.Proofs.Ledger.Assembly
import Utxo.Proofs.Ledger.ScriptBoundary
import Utxo.Proofs.Script.Provenance
import Utxo.Proofs.Script.Frame
import Utxo.Proofs.Script.Length
import Utxo.Proofs.Script.Malformed
import Utxo.Proofs.Signature.Der
import Utxo.Proofs.Ledger.Malleability
import Utxo.Proofs.Key.Derivation
import Utxo.Proofs.Key.Import
import Utxo.Proofs.Ledger.Reading
import Utxo.Proofs.Json.Compact
import Utxo.Proofs.Json.Form
import Utxo.Proofs.Json.Place
import Utxo.Proofs.Json.Ledger
import Utxo.Proofs.Wire.Counting
import Utxo.Proofs.Hash.Hexadecimal
import Utxo.Proofs.Json.Pretty
import Utxo.Proofs.Json.Members
import Utxo.Proofs.Json.Config

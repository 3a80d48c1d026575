import SettlementLedger.Config.Document
import SettlementLedger.Datum.Form

/-!
# Loading a configuration

A configuration is read from a document, which is a table of its fields, and is then checked.
-/

set_option autoImplicit false
set_option relaxedAutoImplicit false

namespace SettlementLedger.Config

/-- The configuration that a document holds. -/
def ofText (text : String) : Except ConfigError Config :=
  match Document.parse? text with
  | none => .error .malformed
  | some entries =>
    match PlainForm.ofDatum (α := Config) (.table entries) with
    | .error _ => .error .malformed
    | .ok config => do
      config.validate
      return config

/-- The configuration in a file, given its bytes if the file exists. -/
def ofFile (content : Option Bytes) : Except ConfigError Config :=
  match content.bind fun bytes ↦ String.fromUTF8? ⟨bytes.toArray⟩ with
  | none => .error .unreadable
  | some text => ofText text

end SettlementLedger.Config

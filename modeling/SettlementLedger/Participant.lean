import SettlementLedger.Address

/-!
# Participants with names

The wallet and the log of a participant are derived from its name, so that one name is the same
participant in every run.
-/

set_option autoImplicit false
set_option relaxedAutoImplicit false

namespace SettlementLedger

/-- A wallet and the writing key of a log. -/
structure Participant where
  name : String
  seed : Seed
  address : Address
  writingKey : WritingKey

/-- The writing key of a name. -/
def WritingKey.ofName (suite : Suite) (name : String) : WritingKey :=
  (suite.hash (Bytes.ofText ("writer/" ++ name))).cast rfl

/-- The seed of a wallet of a name. -/
def Seed.ofName (suite : Suite) (name : String) : Seed :=
  (suite.hash (Bytes.ofText name)).cast rfl

namespace Participant

/-- The participant with a name. -/
def ofName (suite : Suite) (name : String) : Participant where
  name
  seed := Seed.ofName suite name
  address := ⟨suite.publicKey (Seed.ofName suite name)⟩
  writingKey := WritingKey.ofName suite name

/-- The same wallet with another log. -/
def withWritingKey (participant : Participant) (writingKey : WritingKey) : Participant :=
  { participant with writingKey }

/-- The participant that a text names: a name, or the name of a wallet and the name of a log with an
at sign between them. -/
def ofText (suite : Suite) (text : String) : Participant :=
  let wallet := ofName suite (String.ofList (text.toList.takeWhile (· != '@')))
  match text.toList.dropWhile (· != '@') with
  | [] => wallet
  | _ :: log => wallet.withWritingKey (WritingKey.ofName suite (String.ofList log))

end Participant

end SettlementLedger

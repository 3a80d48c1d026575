import SettlementLedger.Transition.Settlement

/-!
# Standing

The administrator decides on the standing of others: it whitelists addresses and bans them, and it
makes writers indexers and indexers writers. An indexer cannot be banned, so that a ban never
changes the membership set.
-/

set_option autoImplicit false
set_option relaxedAutoImplicit false

namespace SettlementLedger.Setting

/-- Whitelists an address, with a license if it never had one. -/
def appendWhitelist (setting : Setting) (draft : Draft) (target : Address) :
    Except Refusal Draft := do
  let admin ← setting.requireAdmin draft
  let node := (← draft.node target).getD {}
  require (¬ node.role.isWhitelisted) .alreadyWhitelisted
  let (license, draft) ← draft.licenseOf target node
  let draft := draft.putNode target { node with role := .whitelisted, license }
  setting.settle draft admin.address .adminWaivable none

/-- Clears the roles of an address that is neither the administrator nor an indexer. -/
def banValidator (setting : Setting) (draft : Draft) (target : Address) :
    Except Refusal Draft := do
  let admin ← setting.requireAdmin draft
  require (target ≠ admin.address) .targetIsAdmin
  let node ← draft.existingNode target .notWhitelisted
  require node.role.isWhitelisted .notWhitelisted
  require (¬ node.role.isIndexer) .targetIsIndexer
  let draft := draft.putNode target { node with role := .none }
  setting.settle draft admin.address .adminWaivable none

/-- Makes a writer an indexer; its writing key joins the membership set. -/
def addIndexer (setting : Setting) (draft : Draft) (target : Address) :
    Except Refusal Draft := do
  let admin ← setting.requireAdmin draft
  let node ← draft.existingNode target .notWriter
  require node.role.isWriter .notWriter
  require (¬ node.role.isIndexer) .alreadyIndexer
  let draft ← draft.addMember setting.members node.writingKey
  let draft := draft.putNode target { node with role := .indexer }
  setting.settle draft admin.address .charged none

/-- Makes an indexer a writer; its writing key leaves the membership set. -/
def removeIndexer (setting : Setting) (draft : Draft) (target : Address) :
    Except Refusal Draft := do
  let admin ← setting.requireAdmin draft
  let node ← draft.existingNode target .notIndexer
  require node.role.isIndexer .notIndexer
  let draft ← draft.removeMember setting.members node.writingKey
  let draft := draft.putNode target { node with role := .writer }
  setting.settle draft admin.address .charged none

end SettlementLedger.Setting

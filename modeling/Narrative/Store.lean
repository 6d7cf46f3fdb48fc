import Narrative.KeyMap
import Narrative.Selection

/-!
The progress of every list that has been visited, by the identity of its directive.
-/

set_option autoImplicit false

namespace Narrative

/-- The progress of lists by identity. -/
abbrev Store := KeyMap Progress

namespace Store

/-- The progress kept for an identity, or that of a list never visited. -/
def progress (store : Store) (identity : String) : Progress :=
  (store.get? identity).getD Progress.none

/-- Whether an identity is one of a document's, under the namings that put the name of the document
and an at sign first. -/
def belongsTo (document identity : String) : Bool :=
  (document.toList ++ ['@']).isPrefixOf identity.toList

def forget (store : Store) (document : String) : Store :=
  store.keep (fun identity => !belongsTo document identity)

/-- How many identities are forgotten with a document. -/
def forgotten (store : Store) (document : String) : Nat :=
  store.size - (store.forget document).size

/-- The store in which the given identities are again as in an earlier store. -/
def putBack (earlier : Store) : List String → Store → Store
  | [], store => store
  | identity :: rest, store =>
    putBack earlier rest (match earlier.get? identity with
      | some progress => store.insert identity progress
      | none => store.erase identity)

end Store

inductive Lifecycle where
  /-- It has shown nothing yet. -/
  | unvisited
  /-- It shows branches. -/
  | active
  /-- It has shown every branch and shows nothing any more. -/
  | exhausted
deriving DecidableEq

namespace Lifecycle

def word : Lifecycle → String
  | unvisited => "unvisited"
  | active => "active"
  | exhausted => "exhausted"

end Lifecycle

/-- Where a directive is in its life. A conditional keeps no progress and counts as unvisited. -/
def Store.lifecycle (store : Store) (directive : Directive) : Lifecycle :=
  match store.get? directive.identity, directive.kind with
  | none, _ => .unvisited
  | some _, .conditional => .unvisited
  | some progress, .list kind =>
    if kind = .once ∧ directive.branches.length ≤ progress.visits.toNat then .exhausted
    else if progress.visits = 0 then .unvisited
    else .active

end Narrative

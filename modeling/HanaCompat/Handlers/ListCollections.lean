import HanaCompat.Types

namespace HanaCompat.Handlers

def nonEmptyDocument : Option Value → Bool
  | some (.document ps) => !ps.isEmpty
  | _ => false

def nameOnlyFalse : Option Value → Bool
  | some (.bool b) => !b
  | _ => false

def listCollectionsReply (db : String) (names : List String) : Document :=
  ⟨[("cursor", .document [("id", .int64 0), ("ns", .string (db ++ ".$cmd.listCollections")),
      ("firstBatch", .array (names.map fun n =>
        .document [("name", .string n), ("type", .string "collection")]))]),
    ("ok", .double 0x3FF0000000000000)], by simp⟩

/-- `MsgListCollections` on the request's document, replying with the document of its one
section; `msg.Document()`, `h.hanaPool.Tables` and `wire.OpMsg` are absent from src/, and
`Tables` is a parameter whose error `lazyerrors.Error` wraps with the handler's name. The
debug printing is left out. -/
def msgListCollections (tables : String → Except GoError (List String)) (document : Document) :
    Except GoError Document :=
  if nonEmptyDocument (document.get "filter") then
    .error (.command .notImplemented "MsgListCollections: filter is not supported")
  else if nonEmptyDocument (document.get "cursor") then
    .error (.command .notImplemented "MsgListCollections: cursor is not supported")
  else if nameOnlyFalse (document.get "nameOnly") then
    .error (.command .notImplemented "MsgListCollections: nameOnly=false is not supported")
  else
    match document.get "$db" with
    | some (.string db) =>
      match tables db with
      | .error e => .error (.wrap "MsgListCollections" e)
      | .ok names => .ok (listCollectionsReply db names)
    | _ => .error (.lazy "no db")

/-- The requests `MsgListCollections` answers: no non-empty `filter` or `cursor` document, no
`nameOnly: false`, and a `$db` string whose tables `Tables` lists; a `filter` or `cursor` of
another type, and a `nameOnly` that is not a bool, are ignored. The reply lists each table in
the order `Tables` gives. -/
theorem msgListCollections_eq_ok {tables : String → Except GoError (List String)}
    {document reply : Document} :
    msgListCollections tables document = .ok reply ↔
      nonEmptyDocument (document.get "filter") = false ∧
      nonEmptyDocument (document.get "cursor") = false ∧
      nameOnlyFalse (document.get "nameOnly") = false ∧
      ∃ db names, document.get "$db" = some (.string db) ∧ tables db = .ok names ∧
        reply = listCollectionsReply db names := by
  unfold msgListCollections
  cases nonEmptyDocument (document.get "filter") <;> cases nonEmptyDocument (document.get "cursor") <;>
    cases nameOnlyFalse (document.get "nameOnly") <;> simp only [if_true, if_false, reduceCtorEq,
      Bool.false_eq_true, Bool.true_eq_false, false_and, and_false, true_and, false_iff]
  split
  · rename_i db hdb
    cases ht : tables db <;> simp [hdb, ht, eq_comm]
  · rename_i hdb
    simp only [reduceCtorEq, false_iff, not_exists, not_and]
    exact fun db _ h => (hdb db h).elim

end HanaCompat.Handlers

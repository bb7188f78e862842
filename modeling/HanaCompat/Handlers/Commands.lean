import HanaCompat.Types

namespace HanaCompat.Handlers

structure Command where
  name : String
  help : String

/-- The map literal `commands`, in source order, with the entries commented out left out. -/
def commands : List (String × Command) := [
  ("buildInfo", ⟨"buildInfo", "Returns a summary of the build information."⟩),
  ("usersInfo", ⟨"usersInfo", "Returns user USERNAME. Is used as a workaround to allow use of some GUIs"⟩),
  ("rolesInfo", ⟨"rolesInfo", "Return role readWrite. Is used as a workaround to allow use of some GUIs"⟩),
  ("getlasterror", ⟨"getlasterror",
    "Does not return last error. Is used as a workaround to allow use of some GUIs."⟩),
  ("getLastError", ⟨"getLastError",
    "Does not return last error. Is used as a workaround to allow use of some GUIs."⟩),
  ("connectionStatus", ⟨"connectionStatus", "checks connection"⟩),
  ("create", ⟨"create", "Creates the collection."⟩),
  ("dbStats", ⟨"dbStats", "Returns the statistics of the database."⟩),
  ("drop", ⟨"drop", "Drops the collection."⟩),
  ("dropDatabase", ⟨"dropDatabase", "Deletes the database."⟩),
  ("getLog", ⟨"getLog", "Returns the most recent logged events from memory."⟩),
  ("hostInfo", ⟨"hostInfo", "Returns a summary of the system information."⟩),
  ("isMaster", ⟨"isMaster",
    "Returns the role of the SAP HANA compatibility layer for MongoDB Wire Protocol instance."⟩),
  ("hello", ⟨"hello",
    "Returns the role of the SAP HANA compatibility layer for MongoDB Wire Protocol instance."⟩),
  ("listCollections", ⟨"listCollections",
    "Returns the information of the collections and views in the database."⟩),
  ("listDatabases", ⟨"listDatabases", "Returns a summary of all the databases."⟩),
  ("listCommands", ⟨"listCommands", "Returns information about the currently supported commands."⟩),
  ("ping", ⟨"ping", "Returns a pong response. Used for testing purposes."⟩),
  ("whatsmyuri", ⟨"whatsmyuri", "An internal command."⟩),
  ("authenticate", ⟨"authenticate", "a method for authentication"⟩),
  ("delete", ⟨"delete", "Deletes documents matched by the query."⟩),
  ("find", ⟨"find", "Returns documents matched by the custom query."⟩),
  ("findAndModify", ⟨"findAndModify",
    "find one document, modifies it and return either the old document or the new document."⟩),
  ("count", ⟨"count", "Returns the count of documents that's matched by the query."⟩),
  ("insert", ⟨"insert", "Inserts documents into the database."⟩),
  ("update", ⟨"update", "Updates documents that are matched by the query."⟩),
  ("debug_error", ⟨"debug_error", "Used for debugging purposes."⟩),
  ("debug_panic", ⟨"debug_panic", "Used for debugging purposes."⟩)]

theorem commands_keys_nodup : (commands.map fun kc => kc.2.name).Nodup := by decide

theorem commands_key_eq_name : ∀ kc ∈ commands, kc.1 = kc.2.name := by decide

/-- The order in which `range commands` visits the table: any permutation of it. -/
structure CommandOrder where
  visited : List (String × Command)
  perm : visited.Perm commands

def helpDocument (command : Command) : Value := .document [("help", .string command.help)]

def setCommands (cmdList : Document) (visited : List (String × Command)) : Document :=
  visited.foldl (fun cmdList kc => cmdList.set kc.2.name (helpDocument kc.2)) cmdList

/-- `SupportedCommands`: the document of the one section of its reply, `float64(1)` written
as its bits. The handlers the table names, `wire.OpMsg` and `SetSections` are absent from
src/. -/
def supportedCommands (order : CommandOrder) : Document :=
  ⟨[("commands", .document (setCommands Document.empty order.visited).pairs),
    ("ok", .double 0x3FF0000000000000)], by simp⟩

theorem setCommands_pairs : ∀ (visited : List (String × Command)) (cmdList : Document),
    (visited.map fun kc => kc.2.name).Nodup → (∀ kc ∈ visited, kc.2.name ∉ cmdList.keys) →
      (setCommands cmdList visited).pairs =
        cmdList.pairs ++ visited.map fun kc => (kc.2.name, helpDocument kc.2)
  | [], _, _, _ => by simp [setCommands]
  | kc :: visited, cmdList, hnd, hfresh => by
    rw [List.map_cons, List.nodup_cons] at hnd
    have hkc : kc.2.name ∉ cmdList.keys := hfresh kc (.head _)
    have hnext : ∀ kc' ∈ visited, kc'.2.name ∉ (cmdList.set kc.2.name (helpDocument kc.2)).keys := by
      intro kc' hm hk
      rw [Document.keys_set_of_not_mem _ _ hkc, List.mem_append, List.mem_singleton] at hk
      rcases hk with hk | hk
      · exact hfresh kc' (.tail _ hm) hk
      · exact hnd.1 (hk ▸ List.mem_map_of_mem _ hm)
    rw [setCommands, List.foldl_cons, ← setCommands, setCommands_pairs visited _ hnd.2 hnext,
      Document.set_pairs_of_not_mem _ _ hkc]
    simp

/-- Whatever order the map range takes, `listCommands` lists every command of the table
exactly once, under its key and with its help. -/
theorem supportedCommands_lists_each (order : CommandOrder) :
    ∃ entries, (supportedCommands order).get "commands" = some (.document entries) ∧
      entries.Perm (commands.map fun kc => (kc.1, helpDocument kc.2)) := by
  have hnd : (order.visited.map fun kc => kc.2.name).Nodup :=
    (order.perm.map _).nodup_iff.mpr commands_keys_nodup
  refine ⟨_, rfl, ?_⟩
  rw [setCommands_pairs _ _ hnd fun _ _ h => List.not_mem_nil _ h, Document.empty, List.nil_append]
  refine (order.perm.map _).trans (.of_eq (List.map_congr_left fun kc hm => ?_))
  rw [commands_key_eq_name kc hm]

end HanaCompat.Handlers

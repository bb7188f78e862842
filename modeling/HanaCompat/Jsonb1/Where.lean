import HanaCompat.Types

namespace HanaCompat.Jsonb1

inductive Piece where
  | lit (s : String)
  | param (n : Nat)
deriving DecidableEq

abbrev Sql := List Piece

/-- An entry of `args`. The field name is passed to the driver as that string, an
ObjectID as the text of its extended JSON. -/
inductive Arg where
  | field (name : String)
  | int32 (v : BitVec 32)
  | string (s : String)
  | objectID (id : ObjectID)
  | nil
deriving DecidableEq

/-- The results `(sql, args)` of a compiler function with the placeholder counter it
leaves behind. `pg.Placeholder` is absent from src/: a counter `p` whose `Next`
increments it and returns the token of the new value, `.param (p + 1)`. -/
abbrev Compiled := Except Fault (Sql × List Arg × Nat)

/-- The option loop of `scalar`'s `types.Regex` case: it keeps every `i` and records an
error for any other option, without leaving the loop. -/
def regexOptions : List Char → String × Bool
  | [] => ("", false)
  | c :: cs =>
    let (o, bad) := regexOptions cs
    if c = 'i' then ("i" ++ o, bad) else (o, true)

def scalar (v : Value) (p : Nat) : Compiled :=
  match v with
  | .int32 n => .ok ([.lit "to_jsonb(", .param (p + 1), .lit "::int4)"], [.int32 n], p + 1)
  | .string s => .ok ([.lit "to_jsonb(", .param (p + 1), .lit "::text)"], [.string s], p + 1)
  | .objectID id => .ok ([.param (p + 1)], [.objectID id], p + 1)
  | .regex pattern opts =>
    match regexOptions opts.toList with
    | (_, true) => .error (.error (.lazy "scalar: unhandled regex option %v (%v)"))
    | (options, false) =>
      .ok ([.param (p + 1)],
        [.string (if options ≠ "" then "(?" ++ options ++ ")" ++ pattern else pattern)], p + 1)
  | _ => .error (.error (.lazy "scalar: unhandled field %v (%T)"))

/-- `common.InArray`, absent from src/: compiles the array of `$in`/`$nin` with the
element compiler it is given (`scalar`). -/
def InArray := List Value → Nat → (Value → Nat → Compiled) → Compiled

/-- `common.LogicExpr`, absent from src/: compiles `{$and|$or|$nor: [...]}` and calls
back `wherePair` on pairs taken from inside the array. -/
def LogicExpr := (op : String) → (exprs : List Value) → Nat →
  ((k : String) → (v : Value) → sizeOf v < sizeOf exprs → Nat → Compiled) → Compiled

structure Common where
  logicExpr : LogicExpr
  inArray : InArray

def andSep (sql : Sql) : Sql := if sql = [] then sql else sql ++ [.lit " AND", .lit " "]

def operand (head : Sql) (field : String) : Compiled → Compiled
  | .error e => .error (e.wrap "fieldExpr")
  | .ok (s, a, q) => .ok (head ++ .lit " " :: s, .field field :: a, q)

def optionsOf (filterMap : List (String × Value)) : Except Fault String :=
  match filterMap.lookup "$options" with
  | none => .ok ""
  | some (.string o) => .ok o
  | some _ => .error (.error (.command .badValue "$options has to be a string"))

/-- The panic of the unchecked assertion `value.(target)` on an `any` holding `v`, whose
message names the dynamic type found. -/
def assertionPanic (v : Value) (target : String) : Fault :=
  .panic ("interface conversion: interface \x7b\x7d is " ++ v.goType.name ++ ", not " ++ target)

/-- The `switch value.(type)` of the `$regex` case: the regex it hands to `scalar`,
carrying the options of `$options` when those are set. -/
def regexValue (options : String) : Value → Except Fault Value
  | .string s => .ok (.regex s options)
  | .regex pattern opts =>
    if options ≠ "" then
      if opts ≠ "" then
        .error (.error (.command .regexOptions "options set in both $regex and $options"))
      else .ok (.regex pattern options)
    else .ok (.regex pattern opts)
  | _ => .error (.error (.command .badValue "$regex has to be a string"))

def fieldOp (inArray : InArray) (field : String) (filterMap : List (String × Value))
    (op : String) (value : Value) (p : Nat) : Compiled :=
  let cmp (opSql : String) :=
    operand [.lit "_jsonb->", .param (p + 1), .lit opSql] field (scalar value (p + 1))
  match op with
  | "$in" =>
    match value with
    | .array a => operand [.lit "_jsonb->", .param (p + 1), .lit " IN"] field
        (inArray a (p + 1) scalar)
    | _ => .error (assertionPanic value "*types.Array")
  | "$nin" =>
    match value with
    | .array a => operand [.lit "_jsonb->", .param (p + 1), .lit " NOT IN"] field
        (inArray a (p + 1) scalar)
    | _ => .error (assertionPanic value "*types.Array")
  | "$eq" => cmp " ="
  | "$ne" => cmp " <>"
  | "$lt" => cmp " <"
  | "$lte" => cmp " <="
  | "$gt" => cmp " >"
  | "$gte" => cmp " >="
  | "$regex" =>
    match optionsOf filterMap with
    | .error e => .error e
    | .ok options =>
      match regexValue options value with
      | .error e => .error e
      | .ok v => operand [.lit "_jsonb->>", .param (p + 1), .lit " ~"] field (scalar v (p + 1))
  | _ => .error (.error (.wrap "fieldExpr" (.lazy "unhandled \x7b%q: %v\x7d")))

mutual

def fieldExprLoop (inArray : InArray) (field : String) (filterMap : List (String × Value)) :
    List (String × Value) → Sql → List Arg → Nat → Compiled
  | [], sql, args, p => .ok (sql, args, p)
  | (op, value) :: rest, sql, args, p =>
    if op = "$options" then fieldExprLoop inArray field filterMap rest sql args p
    else if op = "$not" then
      match fieldExprNot inArray field value p with
      | .error e => .error (e.wrap "fieldExpr")
      | .ok (argSql, arg, q) =>
        fieldExprLoop inArray field filterMap rest
          (andSep sql ++ .lit "NOT(" :: argSql ++ [.lit ")"]) (args ++ arg) q
    else
      match fieldOp inArray field filterMap op value p with
      | .error e => .error e
      | .ok (s, a, q) => fieldExprLoop inArray field filterMap rest (andSep sql ++ s) (args ++ a) q

def fieldExprNot (inArray : InArray) (field : String) : Value → Nat → Compiled
  | .document inner, p => fieldExprLoop inArray field inner inner [] [] p
  | v, _ => .error (assertionPanic v "types.Document")

end

def fieldExpr (inArray : InArray) (field : String) (expr : List (String × Value)) (p : Nat) :
    Compiled :=
  fieldExprLoop inArray field expr expr [] [] p

def pairScalar (head : Sql) (key : String) : Compiled → Compiled
  | .error e => .error (e.wrap "wherePair")
  | .ok (s, a, q) => .ok (head ++ s, .field key :: a, q)

def wherePair (c : Common) (key : String) (value : Value) (p : Nat) : Compiled :=
  if hasPrefix key "$" then
    match value with
    | .array exprs => c.logicExpr key exprs p fun k v _ q => wherePair c k v q
    | _ => .error (assertionPanic value "*types.Array")
  else
    match value with
    | .document expr => (fieldExpr c.inArray key expr p).mapError (Fault.wrap "wherePair")
    | .regex .. => pairScalar [.lit "_jsonb->>", .param (p + 1), .lit " ~ "] key
        (scalar value (p + 1))
    | _ => pairScalar [.lit "_jsonb->", .param (p + 1), .lit " = "] key (scalar value (p + 1))
termination_by sizeOf value
decreasing_by simp_wf; omega

def whereLoop (c : Common) : List (String × Value) → Nat → Sql → List Arg → Nat → Compiled
  | [], _, sql, args, p => .ok (sql, args, p)
  | (key, value) :: rest, i, sql, args, p =>
    let sql := if i ≠ 0 then sql ++ [.lit " AND"] else sql
    match wherePair c key value p with
    | .error e => .error (e.wrap "where")
    | .ok (argSql, arg, q) =>
      whereLoop c rest (i + 1) (sql ++ .lit " (" :: argSql ++ [.lit ")"]) (args ++ arg) q

def «where» (c : Common) (filter : Document) (p : Nat) : Compiled :=
  if filter.pairs.isEmpty then .ok ([], [], p)
  else whereLoop c filter.pairs 0 [.lit " WHERE"] [] p

def joinWith (sep : String) : List (Nat → Compiled) → Nat → Compiled
  | [], p => .ok ([], [], p)
  | [g], p => g p
  | g :: gs, p =>
    match g p with
    | .error e => .error e
    | .ok (s, a, q) =>
      match joinWith sep gs q with
      | .error e => .error e
      | .ok (s', a', q') => .ok (s ++ .lit sep :: s', a ++ a', q')

def enclose (pre : String) : Compiled → Compiled
  | .error e => .error e
  | .ok (s, a, q) => .ok (.lit pre :: s ++ [.lit ")"], a, q)

/-- Modelled from the spec: `common.InArray`, absent from src/. The elements' SQL,
separated by commas, between parentheses. -/
def inArraySpec : InArray := fun a p f => enclose "(" (joinWith ", " (a.map f) p)

theorem sizeOf_lt_of_mem_document {exprs : List Value} {ps : List (String × Value)}
    {k : String} {v : Value} (he : Value.document ps ∈ exprs) (hkv : (k, v) ∈ ps) :
    sizeOf v < sizeOf exprs := by
  have h₁ := List.sizeOf_lt_of_mem he
  have h₂ := List.sizeOf_lt_of_mem hkv
  simp only [Value.document.sizeOf_spec, Prod.mk.sizeOf_spec] at h₁ h₂
  omega

def logicElem (exprs : List Value)
    (cb : (k : String) → (v : Value) → sizeOf v < sizeOf exprs → Nat → Compiled) :
    (e : Value) → e ∈ exprs → Nat → Compiled
  | .document ps, he => fun q =>
    enclose "(" (joinWith " AND " (ps.attach.map fun kv =>
      cb kv.1.1 kv.1.2 (sizeOf_lt_of_mem_document he kv.2)) q)
  | _, _ => fun _ => .error (.error (.command .badValue "$or/$and/$nor entries need to be full objects"))

/-- Modelled from the spec: `common.LogicExpr`, absent from src/. `$and` and `$or` join
the elements' conditions, `$nor` negates their disjunction. -/
def logicExprSpec : LogicExpr := fun op exprs p cb =>
  let elems := exprs.attach.map fun e => logicElem exprs cb e.1 e.2
  if op = "$and" then joinWith " AND " elems p
  else if op = "$or" then joinWith " OR " elems p
  else if op = "$nor" then enclose "NOT (" (joinWith " OR " elems p)
  else .error (.error (.command .badValue "unknown top level operator"))

def specCommon : Common := ⟨logicExprSpec, inArraySpec⟩

end HanaCompat.Jsonb1

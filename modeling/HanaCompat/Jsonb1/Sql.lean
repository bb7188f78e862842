import HanaCompat.Jsonb1.Where

namespace HanaCompat.Jsonb1

/-- A character of the SQL text, or a placeholder. -/
inductive Tok where
  | char (c : Char)
  | param (n : Nat)
deriving DecidableEq

def lits (s : String) : List Tok := s.toList.map .char

@[simp] theorem lits_append (s t : String) : lits (s ++ t) = lits s ++ lits t := by
  simp [lits]

def Piece.toks : Piece → List Tok
  | .lit s => lits s
  | .param n => [.param n]

/-- The text of emitted SQL. -/
def sqlToks (sql : Sql) : List Tok := sql.flatMap Piece.toks

@[simp] theorem sqlToks_append (a b : Sql) : sqlToks (a ++ b) = sqlToks a ++ sqlToks b :=
  List.flatMap_append _ _ _

@[simp] theorem sqlToks_cons (x : Piece) (a : Sql) : sqlToks (x :: a) = x.toks ++ sqlToks a := rfl

@[simp] theorem sqlToks_nil : sqlToks [] = [] := rfl

inductive CmpOp where
  | eq | ne | lt | lte | gt | gte
deriving DecidableEq

def CmpOp.sql : CmpOp → String
  | .eq => "="
  | .ne => "<>"
  | .lt => "<"
  | .lte => "<="
  | .gt => ">"
  | .gte => ">="

def CmpOp.holds : CmpOp → Ordering → Bool
  | .eq, o => o == .eq
  | .ne, o => o != .eq
  | .lt, o => o == .lt
  | .lte, o => o != .gt
  | .gt, o => o == .gt
  | .gte, o => o != .lt

/-- The right side of a comparison: the placeholder inside `to_jsonb(...::int4)`,
`to_jsonb(...::text)`, or bare. -/
inductive Rhs where
  | int4 | text | bare
deriving DecidableEq

mutual

/-- A comparison, a regular-expression match or a negated group, over bound arguments. -/
inductive Atom where
  | cmp (field : Arg) (op : CmpOp) (rhs : Rhs) (value : Arg)
  | regex (field : Arg) (pattern : Arg)
  | not (c : Conj)

inductive Conj where
  | one (a : Atom)
  | and (a : Atom) (c : Conj)

end

def Rhs.toks : Rhs → Nat → List Tok
  | .int4, n => lits "to_jsonb(" ++ .param n :: lits "::int4)"
  | .text, n => lits "to_jsonb(" ++ .param n :: lits "::text)"
  | .bare, n => [.param n]

mutual

/-- The text of an atom whose placeholders are numbered from `p + 1`, its arguments, and
the last number used. -/
def Atom.render : Atom → Nat → List Tok × List Arg × Nat
  | .cmp f op rhs v, p =>
    (lits "_jsonb->" ++ .param (p + 1) :: lits (" " ++ op.sql ++ " ") ++ rhs.toks (p + 2),
      [f, v], p + 2)
  | .regex f pat, p => (lits "_jsonb->>" ++ .param (p + 1) :: lits " ~ " ++ [.param (p + 2)],
      [f, pat], p + 2)
  | .not c, p =>
    let r := c.render p
    (lits "NOT(" ++ r.1 ++ lits ")", r.2.1, r.2.2)

def Conj.render : Conj → Nat → List Tok × List Arg × Nat
  | .one a, p => a.render p
  | .and a c, p =>
    let r := a.render p
    let s := c.render r.2.2
    (r.1 ++ lits " AND " ++ s.1, r.2.1 ++ s.2.1, s.2.2)

end

mutual

def Atom.size : Atom → Nat
  | .not c => c.size + 1
  | _ => 1

def Conj.size : Conj → Nat
  | .one a => a.size + 1
  | .and a c => a.size + c.size + 1

end

abbrev PState := List Tok × Nat × List Arg

def expect : List Tok → List Tok → Option (List Tok)
  | [], ts => some ts
  | t :: pre, t' :: ts => if t = t' then expect pre ts else none
  | _ :: _, [] => none

def takeParam : PState → Option (Arg × PState)
  | (.param n :: ts, p, a :: args) => if n = p + 1 then some (a, ts, p + 1, args) else none
  | _ => none

def parseOp (ts : List Tok) : Option (CmpOp × List Tok) :=
  [CmpOp.ne, .lte, .gte, .eq, .lt, .gt].findSome? fun op =>
    (expect (lits (" " ++ op.sql ++ " ")) ts).map fun ts => (op, ts)

def parseRhs (st : PState) : Option (Rhs × Arg × PState) :=
  match expect (lits "to_jsonb(") st.1 with
  | some ts =>
    match takeParam (ts, st.2) with
    | some (v, ts, q) =>
      match expect (lits "::int4)") ts with
      | some ts => some (.int4, v, ts, q)
      | none => (expect (lits "::text)") ts).map fun ts => (.text, v, ts, q)
    | none => none
  | none => (takeParam st).map fun (v, st) => (.bare, v, st)

mutual

def parseAtom : Nat → PState → Option (Atom × PState)
  | 0, _ => none
  | fuel + 1, (ts, p, args) =>
    match expect (lits "NOT(") ts with
    | some ts =>
      match parseConj fuel (ts, p, args) with
      | some (c, ts, q, rest) => (expect (lits ")") ts).map fun ts => (.not c, ts, q, rest)
      | none => none
    | none =>
      match expect (lits "_jsonb->>") ts with
      | some ts =>
        match takeParam (ts, p, args) with
        | some (f, ts, q, rest) =>
          match expect (lits " ~ ") ts with
          | some ts => (takeParam (ts, q, rest)).map fun (pat, st) => (.regex f pat, st)
          | none => none
        | none => none
      | none =>
        match expect (lits "_jsonb->") ts with
        | some ts =>
          match takeParam (ts, p, args) with
          | some (f, ts, q, rest) =>
            match parseOp ts with
            | some (op, ts) =>
              (parseRhs (ts, q, rest)).map fun (rhs, v, st) => (.cmp f op rhs v, st)
            | none => none
          | none => none
        | none => none

def parseConj : Nat → PState → Option (Conj × PState)
  | 0, _ => none
  | fuel + 1, st =>
    match parseAtom fuel st with
    | some (a, ts, q, rest) =>
      match expect (lits " AND ") ts with
      | some ts' => (parseConj fuel (ts', q, rest)).map fun (c, st) => (.and a c, st)
      | none => some (.one a, ts, q, rest)
    | none => none

end

def parseGroup (fuel : Nat) (st : PState) : Option (Conj × PState) :=
  match expect (lits " (") st.1 with
  | some ts =>
    match parseConj fuel (ts, st.2) with
    | some (c, ts, q, rest) => (expect (lits ")") ts).map fun ts => (c, ts, q, rest)
    | none => none
  | none => none

def parseGroups : Nat → PState → Option (List Conj × PState)
  | 0, _ => none
  | fuel + 1, st =>
    match expect (lits " AND") st.1 with
    | some ts =>
      match parseGroup fuel (ts, st.2) with
      | some (c, st) => (parseGroups fuel st).map fun (cs, st) => (c :: cs, st)
      | none => none
    | none => some ([], st)

/-- The groups of a WHERE clause whose placeholders start after `p`, when the text and
the arguments are used up exactly; no clause at all is no group. -/
def parseWhere (fuel : Nat) (ts : List Tok) (p : Nat) (args : List Arg) : Option (List Conj) :=
  if ts = [] ∧ args = [] then some []
  else
    match expect (lits " WHERE") ts with
    | some ts =>
      match parseGroup fuel (ts, p, args) with
      | some (c, st) =>
        match parseGroups fuel st with
        | some (cs, [], _, []) => some (c :: cs)
        | _ => none
      | none => none
    | none => none

def renderGroups : List Conj → Nat → List Tok × List Arg × Nat
  | [], p => ([], [], p)
  | c :: cs, p =>
    let r := c.render p
    let s := renderGroups cs r.2.2
    (lits " AND" ++ lits " (" ++ r.1 ++ lits ")" ++ s.1, r.2.1 ++ s.2.1, s.2.2)

/-- The text of a WHERE clause of the given groups; none for no group. -/
def renderWhere : List Conj → Nat → List Tok × List Arg × Nat
  | [], p => ([], [], p)
  | c :: cs, p =>
    let r := c.render p
    let s := renderGroups cs r.2.2
    (lits " WHERE" ++ lits " (" ++ r.1 ++ lits ")" ++ s.1, r.2.1 ++ s.2.1, s.2.2)

/-- Two texts that differ at a position both have. -/
def clash : List Char → List Char → Bool
  | a :: l, b :: m => a != b || clash l m
  | _, _ => false

def clashParam : List Char → List Char → Bool
  | a :: l, b :: m => a != b || clashParam l m
  | _ :: _, [] => true
  | [], _ => false

theorem expect_append (pre rest : List Tok) : expect pre (pre ++ rest) = some rest := by
  induction pre with
  | nil => rfl
  | cons t pre ih => simp [expect, ih]

theorem expect_clash {s t : String} (h : clash s.toList t.toList = true) (rest : List Tok) :
    expect (lits s) (lits t ++ rest) = none := by
  simp only [lits]
  generalize s.toList = l, t.toList = m at h
  induction l generalizing m with
  | nil => simp [clash] at h
  | cons a l ih =>
    cases m with
    | nil => simp [clash] at h
    | cons b m =>
      simp only [clash, Bool.or_eq_true, bne_iff_ne, ne_eq] at h
      by_cases hab : a = b
      · simp only [hab, not_true_eq_false, false_or] at h
        simp [expect, hab, ih m h]
      · simp [expect, hab]

theorem expect_clashParam {s t : String} (h : clashParam s.toList t.toList = true) (n : Nat)
    (rest : List Tok) : expect (lits s) (lits t ++ .param n :: rest) = none := by
  simp only [lits]
  generalize s.toList = l, t.toList = m at h
  induction l generalizing m with
  | nil => simp [clashParam] at h
  | cons a l ih =>
    cases m with
    | nil => simp [expect]
    | cons b m =>
      simp only [clashParam, Bool.or_eq_true, bne_iff_ne, ne_eq] at h
      by_cases hab : a = b
      · simp only [hab, not_true_eq_false, false_or] at h
        simp [expect, hab, ih m h]
      · simp [expect, hab]

theorem expect_param {s : String} (h : s.toList ≠ []) (n : Nat) (rest : List Tok) :
    expect (lits s) (.param n :: rest) = none := by
  simp only [lits]
  generalize s.toList = l at h
  cases l with
  | nil => exact absurd rfl h
  | cons a l => simp [expect]

theorem parseOp_sql (op : CmpOp) (rest : List Tok) :
    parseOp (lits (" " ++ op.sql ++ " ") ++ rest) = some (op, rest) := by
  cases op <;>
    simp (disch := decide) only [parseOp, CmpOp.sql, List.findSome?, expect_append, expect_clash,
      Option.map_some', Option.map_none']

theorem takeParam_cons {n p : Nat} (h : n = p + 1) (ts : List Tok) (a : Arg) (args : List Arg) :
    takeParam (.param n :: ts, p, a :: args) = some (a, ts, p + 1, args) := by
  simp [takeParam, h]

theorem parseRhs_toks (rhs : Rhs) {n p : Nat} (h : n = p + 1) (v : Arg) (rest : List Tok)
    (more : List Arg) : parseRhs (rhs.toks n ++ rest, p, v :: more) = some (rhs, v, rest, p + 1, more) := by
  subst h
  cases rhs <;>
    simp (disch := decide) only [parseRhs, Rhs.toks, List.append_assoc, List.cons_append,
      expect_append, expect_clash, expect_param, takeParam, if_true, Option.map_some',
      Option.map_none', List.nil_append]

mutual

theorem parseAtom_render : ∀ (a : Atom) (fuel p : Nat) (rest : List Tok) (more : List Arg),
    a.size < fuel →
      parseAtom fuel ((a.render p).1 ++ rest, p, (a.render p).2.1 ++ more) =
        some (a, rest, (a.render p).2.2, more)
  | _, 0, _, _, _, h => absurd h (Nat.not_lt_zero _)
  | .cmp f op rhs v, fuel + 1, p, rest, more, _ => by
    simp (disch := first | decide | omega) only [Atom.render, parseAtom, List.append_assoc,
      List.cons_append, List.nil_append, expect_append, expect_clash, expect_clashParam,
      takeParam_cons, parseOp_sql, parseRhs_toks, Option.map_some']
  | .regex f pat, fuel + 1, p, rest, more, _ => by
    simp (disch := first | decide | omega) only [Atom.render, parseAtom, List.append_assoc,
      List.cons_append, List.nil_append, expect_append, expect_clash, takeParam_cons,
      Option.map_some']
  | .not c, fuel + 1, p, rest, more, h => by
    have ih := parseConj_render c fuel p (lits ")" ++ rest) more
      (by simp only [Atom.size] at h; omega) (expect_clash (by decide) _)
    simp (disch := decide) only [Atom.render, parseAtom, List.append_assoc, expect_append, ih,
      Option.map_some']

theorem parseConj_render : ∀ (c : Conj) (fuel p : Nat) (rest : List Tok) (more : List Arg),
    c.size < fuel → expect (lits " AND ") rest = none →
      parseConj fuel ((c.render p).1 ++ rest, p, (c.render p).2.1 ++ more) =
        some (c, rest, (c.render p).2.2, more)
  | _, 0, _, _, _, h, _ => absurd h (Nat.not_lt_zero _)
  | .one a, fuel + 1, p, rest, more, h, hr => by
    have ha := parseAtom_render a fuel p rest more (by simp only [Conj.size] at h; omega)
    simp only [Conj.render, parseConj, ha, hr]
  | .and a c, fuel + 1, p, rest, more, h, hr => by
    simp only [Conj.size] at h
    have ha := parseAtom_render a fuel p (lits " AND " ++ (c.render (a.render p).2.2).1 ++ rest)
      ((c.render (a.render p).2.2).2.1 ++ more) (by omega)
    have hc := parseConj_render c fuel (a.render p).2.2 rest more (by omega) hr
    simp only [Conj.render, List.append_assoc] at ha ⊢
    simp only [parseConj, ha, expect_append, hc, Option.map_some']

end

mutual

theorem Atom.size_lt_length : ∀ (a : Atom) (p : Nat), a.size < (a.render p).1.length
  | .cmp .., _ => by
    have : (lits "_jsonb->").length = 8 := rfl
    simp only [Atom.size, Atom.render, List.length_append, List.length_cons]
    omega
  | .regex .., _ => by
    have : (lits "_jsonb->>").length = 9 := rfl
    simp only [Atom.size, Atom.render, List.length_append, List.length_cons]
    omega
  | .not c, p => by
    have := Conj.size_le_length c p
    simp only [Atom.size, Atom.render, List.length_append]
    have : (lits "NOT(").length = 4 := rfl
    omega

theorem Conj.size_le_length : ∀ (c : Conj) (p : Nat), c.size ≤ (c.render p).1.length
  | .one a, p => by
    have := Atom.size_lt_length a p
    simp only [Conj.size, Conj.render]
    omega
  | .and a c, p => by
    have := Atom.size_lt_length a p
    have := Conj.size_le_length c (a.render p).2.2
    simp only [Conj.size, Conj.render, List.length_append]
    omega

end

theorem parseGroup_render (c : Conj) (fuel p : Nat) (rest : List Tok) (more : List Arg)
    (h : c.size < fuel) (hr : expect (lits " AND ") (lits ")" ++ rest) = none) :
    parseGroup fuel (lits " (" ++ (c.render p).1 ++ lits ")" ++ rest, p, (c.render p).2.1 ++ more) =
      some (c, rest, (c.render p).2.2, more) := by
  simp only [parseGroup, List.append_assoc, expect_append,
    parseConj_render c fuel p _ more h hr, Option.map_some']

theorem parseGroups_render : ∀ (cs : List Conj) (fuel p : Nat) (more : List Arg),
    (renderGroups cs p).1.length < fuel →
      parseGroups fuel ((renderGroups cs p).1, p, (renderGroups cs p).2.1 ++ more) =
        some (cs, [], (renderGroups cs p).2.2, more)
  | _, 0, _, _, h => absurd h (Nat.not_lt_zero _)
  | [], fuel + 1, p, more, _ => rfl
  | c :: cs, fuel + 1, p, more, h => by
    have hc := Conj.size_le_length c p
    have : (lits " AND").length = 4 := rfl
    simp only [renderGroups, List.length_append] at h ⊢
    have hg := parseGroup_render c fuel p (renderGroups cs (c.render p).2.2).1
      ((renderGroups cs (c.render p).2.2).2.1 ++ more) (by omega) (expect_clash (by decide) _)
    have ih := parseGroups_render cs fuel (c.render p).2.2 more (by omega)
    simp only [List.append_assoc] at hg ⊢
    simp only [parseGroups, expect_append, hg, ih, Option.map_some']

theorem parseWhere_render (cs : List Conj) (fuel p : Nat)
    (h : (renderWhere cs p).1.length < fuel) :
    parseWhere fuel (renderWhere cs p).1 p (renderWhere cs p).2.1 = some cs := by
  cases cs with
  | nil => rfl
  | cons c cs =>
    have hc := Conj.size_le_length c p
    simp only [renderWhere, List.length_append] at h ⊢
    have hg := parseGroup_render c fuel p (renderGroups cs (c.render p).2.2).1
      (renderGroups cs (c.render p).2.2).2.1 (by omega) (expect_clash (by decide) _)
    have hs := parseGroups_render cs fuel (c.render p).2.2 [] (by omega)
    rw [List.append_nil] at hs
    have hne : lits " WHERE" ++ lits " (" ++ (c.render p).1 ++ lits ")" ++
        (renderGroups cs (c.render p).2.2).1 ≠ [] := by
      simp [lits]
    simp only [List.append_assoc] at hg hne ⊢
    simp only [parseWhere, hne, false_and, if_false, expect_append, hg, hs]

/-- The SQL engine on stored JSON: how `->` compares two values, the text `->>` gives a
value, and whether `~` matches a text against a pattern. -/
structure Backend where
  compare : Value → Value → Ordering
  text : Value → String
  regexMatch : String → String → Bool

def and3 : Option Bool → Option Bool → Option Bool
  | some false, _ | _, some false => some false
  | some true, some true => some true
  | _, _ => none

def Rhs.value : Rhs → Arg → Option Value
  | .int4, .int32 n => some (.int32 n)
  | .text, .string s => some (.string s)
  | .bare, .objectID id => some (.objectID id)
  | _, _ => none

mutual

/-- An atom on the stored document `d`: a missing field is NULL, and so is every
comparison or match on it. -/
def Atom.eval (B : Backend) (d : Document) : Atom → Option Bool
  | .cmp (.field f) op rhs v =>
    match d.get f, rhs.value v with
    | some x, some y => some (op.holds (B.compare x y))
    | _, _ => none
  | .regex (.field f) (.string pat) => (d.get f).map fun x => B.regexMatch pat (B.text x)
  | .not c => (c.eval B d).map (!·)
  | _ => none

def Conj.eval (B : Backend) (d : Document) : Conj → Option Bool
  | .one a => a.eval B d
  | .and a c => and3 (a.eval B d) (c.eval B d)

end

/-- Whether the statement with this WHERE text and these arguments returns the row `d`:
the clause parses, and every group is TRUE. -/
def selects (B : Backend) (sql : Sql) (args : List Arg) (p : Nat) (d : Document) : Bool :=
  match parseWhere ((sqlToks sql).length + 1) (sqlToks sql) p args with
  | some groups => groups.all fun g => g.eval B d == some true
  | none => false

theorem and3_assoc (x y z : Option Bool) : and3 x (and3 y z) = and3 (and3 x y) z := by
  rcases x with _ | _ | _ <;> rcases y with _ | _ | _ <;> rcases z with _ | _ | _ <;> rfl

@[simp] theorem and3_some (b b' : Bool) : and3 (some b) (some b') = some (b && b') := by
  cases b <;> cases b' <;> rfl

def Conj.snoc : Conj → Atom → Conj
  | .one a, b => .and a (.one b)
  | .and a c, b => .and a (c.snoc b)

theorem Conj.render_snoc (b : Atom) : ∀ (c : Conj) (p : Nat),
    (c.snoc b).render p =
      ((c.render p).1 ++ lits " AND " ++ (b.render (c.render p).2.2).1,
        (c.render p).2.1 ++ (b.render (c.render p).2.2).2.1, (b.render (c.render p).2.2).2.2)
  | .one a, p => rfl
  | .and a c, p => by
    simp only [Conj.snoc, Conj.render, Conj.render_snoc b c, List.append_assoc]

theorem Conj.eval_snoc (B : Backend) (d : Document) (b : Atom) :
    ∀ c : Conj, (c.snoc b).eval B d = and3 (c.eval B d) (b.eval B d)
  | .one a => rfl
  | .and a c => by
    simp only [Conj.snoc, Conj.eval, Conj.eval_snoc B d b c, and3_assoc]

theorem selects_renderWhere (B : Backend) {sql : Sql} {args : List Arg} {p : Nat}
    (cs : List Conj) (hs : sqlToks sql = (renderWhere cs p).1) (ha : args = (renderWhere cs p).2.1)
    (d : Document) : selects B sql args p d = cs.all fun g => g.eval B d == some true := by
  rw [selects, hs, ha, parseWhere_render cs _ p (Nat.lt_succ_self _)]

end HanaCompat.Jsonb1

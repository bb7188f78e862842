import HanaCompat.Jsonb1.Where

namespace HanaCompat.Jsonb1

def keySameShape (k l : String) : Bool := if hasPrefix k "$" then k == l else !hasPrefix l "$"

def optionsSameShape (k : String) (v w : Value) : Bool :=
  match v, w with
  | .string a, .string b => k != "$options" || a == b
  | _, _ => true

mutual

/-- Two values of the same shape: the same type, documents with the same operators and
plain keys in the same order, arrays of the same length, regexes with the same options.
Field names, scalar values and patterns may differ. -/
def sameShape : Value → Value → Bool
  | .double _, .double _ => true
  | .string _, .string _ => true
  | .document ps, .document qs => pairsSameShape ps qs
  | .array as, .array bs => elemsSameShape as bs
  | .bool _, .bool _ => true
  | .datetime _, .datetime _ => true
  | .null, .null => true
  | .int32 _, .int32 _ => true
  | .int64 _, .int64 _ => true
  | .objectID _, .objectID _ => true
  | .regex _ o, .regex _ o' => o == o'
  | _, _ => false

def pairsSameShape : List (String × Value) → List (String × Value) → Bool
  | [], [] => true
  | (k, v) :: ps, (l, w) :: qs =>
    keySameShape k l && optionsSameShape k v w && sameShape v w && pairsSameShape ps qs
  | _, _ => false

def elemsSameShape : List Value → List Value → Bool
  | [], [] => true
  | v :: vs, w :: ws => sameShape v w && elemsSameShape vs ws
  | _, _ => false

end

@[simp] theorem sameShape_document (ps qs : List (String × Value)) :
    sameShape (.document ps) (.document qs) = pairsSameShape ps qs := rfl

@[simp] theorem pairsSameShape_nil_cons (lw : String × Value) (qs : List (String × Value)) :
    pairsSameShape [] (lw :: qs) = false := rfl

@[simp] theorem pairsSameShape_cons_nil (kv : String × Value) (ps : List (String × Value)) :
    pairsSameShape (kv :: ps) [] = false := rfl

theorem pairsSameShape_cons {k l : String} {v w : Value} {ps qs : List (String × Value)}
    (h : pairsSameShape ((k, v) :: ps) ((l, w) :: qs) = true) :
    keySameShape k l = true ∧ optionsSameShape k v w = true ∧ sameShape v w = true ∧
      pairsSameShape ps qs = true := by
  have h' : (keySameShape k l && optionsSameShape k v w && sameShape v w && pairsSameShape ps qs) =
    true := h
  simp only [Bool.and_eq_true] at h'
  exact ⟨h'.1.1.1, h'.1.1.2, h'.1.2, h'.2⟩

/-- Two compilations emit the same text: both fail, or both succeed with the same SQL and
leave the counter at the same value. -/
def SameSql : Compiled → Compiled → Prop
  | .error _, .error _ => True
  | .ok (s, _, q), .ok (s', _, q') => s = s' ∧ q = q'
  | _, _ => False

/-- `common.InArray` emits the same text for arrays of the same shape. -/
def InArrayShapeSafe (inArray : InArray) : Prop :=
  ∀ a a' p f f', elemsSameShape a a' = true → (∀ v v' q, sameShape v v' = true → SameSql (f v q) (f' v' q)) →
    SameSql (inArray a p f) (inArray a' p f')

/-- `common.LogicExpr` emits the same text for arrays of the same shape when its two
callbacks do on pairs of the same shape. -/
def LogicExprShapeSafe (logicExpr : LogicExpr) : Prop :=
  ∀ op exprs exprs' p cb cb', elemsSameShape exprs exprs' = true →
    (∀ k v h k' v' h' q, keySameShape k k' = true → optionsSameShape k v v' = true →
      sameShape v v' = true → SameSql (cb k v h q) (cb' k' v' h' q)) →
    SameSql (logicExpr op exprs p cb) (logicExpr op exprs' p cb')

theorem keySameShape_dollar {k l : String} (h : keySameShape k l = true) :
    hasPrefix l "$" = hasPrefix k "$" := by
  unfold keySameShape at h
  split at h
  · simp only [beq_iff_eq] at h; subst h; rfl
  · simp_all

theorem keySameShape_plain {k l : String} (h : keySameShape k l = true)
    (hk : ¬hasPrefix k "$" = true) : ¬hasPrefix l "$" = true := by
  rw [keySameShape_dollar h]
  exact hk

theorem keySameShape_eq {k l : String} (h : keySameShape k l = true) (hk : hasPrefix k "$" = true) :
    k = l := by
  simpa [keySameShape, hk] using h

theorem keySameShape_iff_of_dollar {k l o : String} (h : keySameShape k l = true)
    (ho : hasPrefix o "$" = true) : k = o ↔ l = o := by
  by_cases hk : hasPrefix k "$" = true
  · rw [keySameShape_eq h hk]
  · have hl : hasPrefix l "$" = false := by rw [keySameShape_dollar h]; simpa using hk
    constructor <;> rintro rfl <;> simp_all

theorem scalar_sameSql {v w : Value} (h : sameShape v w = true) (p : Nat) :
    SameSql (scalar v p) (scalar w p) := by
  cases v <;> cases w <;> first | exact ⟨rfl, rfl⟩ | trivial | cases h | skip
  obtain rfl : _ = _ := beq_iff_eq.mp h
  simp only [scalar]
  generalize regexOptions _ = r
  obtain ⟨o, bad⟩ := r
  cases bad
  · exact ⟨rfl, rfl⟩
  · trivial

theorem lookup_options_sameShape {ps qs : List (String × Value)} (h : pairsSameShape ps qs = true) :
    (ps.lookup "$options" = none ∧ qs.lookup "$options" = none) ∨
      ∃ v w, ps.lookup "$options" = some v ∧ qs.lookup "$options" = some w ∧
        sameShape v w = true ∧ optionsSameShape "$options" v w = true := by
  induction ps generalizing qs with
  | nil => cases qs <;> simp_all
  | cons kv ps ih =>
    obtain ⟨k, v⟩ := kv
    cases qs with
    | nil => simp at h
    | cons lw qs =>
      obtain ⟨l, w⟩ := lw
      obtain ⟨hk, ho, hv, hr⟩ := pairsSameShape_cons h
      have hkl := keySameShape_iff_of_dollar hk (o := "$options") (by decide)
      by_cases hko : k = "$options"
      · subst hko
        have hl : l = "$options" := hkl.mp rfl
        subst hl
        simp [List.lookup_cons, hv, ho]
      · have hl : l ≠ "$options" := fun e => hko (hkl.mpr e)
        have e₁ : ("$options" == k) = false := by simpa using Ne.symm hko
        have e₂ : ("$options" == l) = false := by simpa using Ne.symm hl
        simpa only [List.lookup_cons, e₁, e₂] using ih hr

theorem optionsOf_sameShape {ps qs : List (String × Value)} (h : pairsSameShape ps qs = true) :
    (∃ e e', optionsOf ps = .error e ∧ optionsOf qs = .error e') ∨
      ∃ o, optionsOf ps = .ok o ∧ optionsOf qs = .ok o := by
  unfold optionsOf
  rcases lookup_options_sameShape h with ⟨h₁, h₂⟩ | ⟨v, w, h₁, h₂, hs, ho⟩
  · simp [h₁, h₂]
  · rw [h₁, h₂]
    cases v <;> cases w <;> first | exact .inl ⟨_, _, rfl, rfl⟩ | (cases hs; done) | skip
    simp only [optionsSameShape, bne_self_eq_false, Bool.false_or, beq_iff_eq] at ho
    exact .inr ⟨_, rfl, by rw [ho]⟩

theorem SameSql.cases {r r' : Compiled} (h : SameSql r r') :
    (∃ e e', r = .error e ∧ r' = .error e') ∨ ∃ s a a' q, r = .ok (s, a, q) ∧ r' = .ok (s, a', q) := by
  rcases r with e | ⟨s, a, q⟩ <;> rcases r' with e' | ⟨s', a', q'⟩
  · exact .inl ⟨e, e', rfl, rfl⟩
  · cases h
  · cases h
  · obtain ⟨rfl, rfl⟩ := h
    exact .inr ⟨s, a, a', q, rfl, rfl⟩

theorem SameSql.of_cases {r r' : Compiled}
    (h : (∃ e e', r = .error e ∧ r' = .error e') ∨ ∃ s a a' q, r = .ok (s, a, q) ∧ r' = .ok (s, a', q)) :
    SameSql r r' := by
  rcases h with ⟨e, e', rfl, rfl⟩ | ⟨s, a, a', q, rfl, rfl⟩
  · trivial
  · exact ⟨rfl, rfl⟩

theorem operand_sameSql {r r' : Compiled} (h : SameSql r r') (head : Sql) (f f' : String) :
    SameSql (operand head f r) (operand head f' r') := by
  rcases h.cases with ⟨e, e', rfl, rfl⟩ | ⟨s, a, a', q, rfl, rfl⟩
  · trivial
  · exact ⟨rfl, rfl⟩

theorem pairScalar_sameSql {r r' : Compiled} (h : SameSql r r') (head : Sql) (k k' : String) :
    SameSql (pairScalar head k r) (pairScalar head k' r') := by
  rcases h.cases with ⟨e, e', rfl, rfl⟩ | ⟨s, a, a', q, rfl, rfl⟩
  · trivial
  · exact ⟨rfl, rfl⟩

theorem SameSql.mapError {r r' : Compiled} (h : SameSql r r') (f : Fault → Fault) :
    SameSql (r.mapError f) (r'.mapError f) := by
  rcases h.cases with ⟨e, e', rfl, rfl⟩ | ⟨s, a, a', q, rfl, rfl⟩
  · trivial
  · exact ⟨rfl, rfl⟩

theorem fieldOp_of_plain (inArray : InArray) (field : String) (fm : List (String × Value))
    {op : String} (h : hasPrefix op "$" = false) (value : Value) (p : Nat) :
    fieldOp inArray field fm op value p = .error (.error (.wrap "fieldExpr" (.lazy "unhandled \x7b%q: %v\x7d"))) := by
  unfold fieldOp
  split <;> first | rfl | (exfalso; revert h; decide)

theorem regexValue_sameShape (o : String) {v w : Value} (hv : sameShape v w = true) :
    (∃ e e', regexValue o v = .error e ∧ regexValue o w = .error e') ∨
      ∃ r r', regexValue o v = .ok r ∧ regexValue o w = .ok r' ∧ sameShape r r' = true := by
  cases v <;> cases w <;> first | exact .inl ⟨_, _, rfl, rfl⟩ | (cases hv; done) | skip
  · exact .inr ⟨_, _, rfl, rfl, beq_self_eq_true o⟩
  · obtain rfl : _ = _ := beq_iff_eq.mp hv
    simp only [regexValue]
    split_ifs
    · exact .inl ⟨_, _, rfl, rfl⟩
    all_goals exact .inr ⟨_, _, rfl, rfl, beq_self_eq_true _⟩

theorem fieldOp_sameSql {inArray : InArray} (hI : InArrayShapeSafe inArray) (f f' : String)
    {fm fm' : List (String × Value)} (hfm : pairsSameShape fm fm' = true) {op op' : String}
    (hop : keySameShape op op' = true) {v w : Value} (hv : sameShape v w = true) (p : Nat) :
    SameSql (fieldOp inArray f fm op v p) (fieldOp inArray f' fm' op' w p) := by
  by_cases hk : hasPrefix op "$" = true
  · obtain rfl := keySameShape_eq hop hk
    have hs := scalar_sameSql hv (p + 1)
    have hin : ∀ a a', sameShape (.array a) (.array a') = true →
        SameSql (inArray a (p + 1) scalar) (inArray a' (p + 1) scalar) :=
      fun a a' h => hI a a' (p + 1) scalar scalar h
        (fun v v' q h => scalar_sameSql h q)
    unfold fieldOp
    split
    all_goals first
      | exact operand_sameSql hs _ f f'
      | skip
    · cases v <;> cases w <;> first | trivial | exact operand_sameSql (hin _ _ hv) _ f f'
    · cases v <;> cases w <;> first | trivial | exact operand_sameSql (hin _ _ hv) _ f f'
    · rcases optionsOf_sameShape hfm with ⟨e, e', h₁, h₂⟩ | ⟨o, h₁, h₂⟩
      · rw [h₁, h₂]; trivial
      · rw [h₁, h₂]
        dsimp only
        rcases regexValue_sameShape o hv with ⟨e, e', h₃, h₄⟩ | ⟨r, r', h₃, h₄, hr⟩
        · rw [h₃, h₄]; trivial
        · rw [h₃, h₄]
          exact operand_sameSql (scalar_sameSql hr _) _ f f'
    · trivial
  · have hk' : hasPrefix op' "$" = false := by rw [keySameShape_dollar hop]; simpa using hk
    rw [fieldOp_of_plain _ _ _ (by simpa using hk), fieldOp_of_plain _ _ _ hk']
    trivial

theorem sameShape_document_left {ps : List (String × Value)} {w : Value}
    (h : sameShape (.document ps) w = true) : ∃ qs, w = .document qs ∧ pairsSameShape ps qs = true := by
  cases w <;> first | exact ⟨_, rfl, h⟩ | cases h

mutual

theorem fieldExprLoop_sameSql {inArray : InArray} (hI : InArrayShapeSafe inArray) (f f' : String) :
    ∀ (fm fm' ops ops' : List (String × Value)) (sql : Sql) (args args' : List Arg) (p : Nat),
      pairsSameShape fm fm' = true → pairsSameShape ops ops' = true →
      SameSql (fieldExprLoop inArray f fm ops sql args p) (fieldExprLoop inArray f' fm' ops' sql args' p)
  | _, _, [], [], _, _, _, _, _, _ => ⟨rfl, rfl⟩
  | _, _, [], _ :: _, _, _, _, _, _, h | _, _, _ :: _, [], _, _, _, _, _, h => nomatch h
  | fm, fm', (op, v) :: ops, (op', w) :: ops', sql, args, args', p, hfm, h => by
    obtain ⟨hk, -, hv, hr⟩ := pairsSameShape_cons h
    have hopt := keySameShape_iff_of_dollar hk (o := "$options") (by decide)
    have hnot := keySameShape_iff_of_dollar hk (o := "$not") (by decide)
    simp only [fieldExprLoop]
    by_cases h₁ : op = "$options"
    · rw [if_pos h₁, if_pos (hopt.mp h₁)]
      exact fieldExprLoop_sameSql hI f f' fm fm' ops ops' sql args args' p hfm hr
    · rw [if_neg h₁, if_neg (mt hopt.mpr h₁)]
      by_cases h₂ : op = "$not"
      · rw [if_pos h₂, if_pos (hnot.mp h₂)]
        rcases (fieldExprNot_sameSql hI f f' v w p hv).cases with
          ⟨e, e', h₃, h₄⟩ | ⟨s, a, a', q, h₃, h₄⟩
        · rw [h₃, h₄]; trivial
        · rw [h₃, h₄]
          exact fieldExprLoop_sameSql hI f f' fm fm' ops ops' _ _ _ q hfm hr
      · rw [if_neg h₂, if_neg (mt hnot.mpr h₂)]
        rcases (fieldOp_sameSql hI f f' hfm hk hv p).cases with
          ⟨e, e', h₃, h₄⟩ | ⟨s, a, a', q, h₃, h₄⟩
        · rw [h₃, h₄]; trivial
        · rw [h₃, h₄]
          exact fieldExprLoop_sameSql hI f f' fm fm' ops ops' _ _ _ q hfm hr

theorem fieldExprNot_sameSql {inArray : InArray} (hI : InArrayShapeSafe inArray) (f f' : String) :
    ∀ (v w : Value) (p : Nat), sameShape v w = true →
      SameSql (fieldExprNot inArray f v p) (fieldExprNot inArray f' w p)
  | .document ps, w, p, h => by
    obtain ⟨qs, rfl, hq⟩ := sameShape_document_left h
    exact fieldExprLoop_sameSql hI f f' ps qs ps qs [] [] [] p hq hq
  | .double _, w, _, h | .string _, w, _, h | .array _, w, _, h | .bool _, w, _, h
  | .datetime _, w, _, h | .null, w, _, h | .int32 _, w, _, h | .int64 _, w, _, h
  | .objectID _, w, _, h | .regex _ _, w, _, h => by
    cases w <;> trivial

end

theorem wherePair_sameSql (c : Common) (hL : LogicExprShapeSafe c.logicExpr)
    (hI : InArrayShapeSafe c.inArray) (key : String) (value : Value) (p : Nat) :
    ∀ key' value', keySameShape key key' = true → optionsSameShape key value value' = true →
      sameShape value value' = true → SameSql (wherePair c key value p) (wherePair c key' value' p) := by
  induction key, value, p using wherePair.induct c with
  | case1 key p hk exprs ih =>
    intro key' value' hkk _ hv
    obtain rfl := keySameShape_eq hkk hk
    cases value' <;> first | cases hv | skip
    unfold wherePair
    simp only [if_pos hk]
    exact hL key exprs _ p _ _ hv fun k v h k' v' _ q hk ho hv => ih k v h q k' v' hk ho hv
  | case2 key value p hk hv' =>
    intro key' value' hkk _ hv
    obtain rfl := keySameShape_eq hkk hk
    unfold wherePair
    simp only [if_pos hk]
    cases value' <;> first | trivial | (cases value <;> first | exact absurd rfl (hv' _) | cases hv)
  | case3 key p hk expr =>
    intro key' value' hkk _ hv
    obtain ⟨qs, rfl, hq⟩ := sameShape_document_left hv
    unfold wherePair
    rw [if_neg hk, if_neg (keySameShape_plain hkk hk)]
    exact (fieldExprLoop_sameSql hI key key' expr qs expr qs [] [] [] p hq hq).mapError _
  | case4 key p hk pattern options =>
    intro key' value' hkk _ hv
    cases value' <;> first | cases hv | skip
    unfold wherePair
    rw [if_neg hk, if_neg (keySameShape_plain hkk hk)]
    exact pairScalar_sameSql (scalar_sameSql hv (p + 1)) _ key key'
  | case5 key value p hk hd hr =>
    intro key' value' hkk _ hv
    unfold wherePair
    rw [if_neg hk, if_neg (keySameShape_plain hkk hk)]
    split
    · exact absurd rfl (hd _)
    · exact absurd rfl (hr _ _)
    · split
      · cases value <;> first | exact absurd rfl (hd _) | cases hv
      · cases value <;> first | exact absurd rfl (hr _ _) | cases hv
      · exact pairScalar_sameSql (scalar_sameSql hv (p + 1)) _ key key'

theorem whereLoop_sameSql (c : Common) (hL : LogicExprShapeSafe c.logicExpr)
    (hI : InArrayShapeSafe c.inArray) :
    ∀ (ps qs : List (String × Value)) (i : Nat) (sql : Sql) (args args' : List Arg) (p : Nat),
      pairsSameShape ps qs = true →
      SameSql (whereLoop c ps i sql args p) (whereLoop c qs i sql args' p)
  | [], [], _, _, _, _, _, _ => ⟨rfl, rfl⟩
  | [], _ :: _, _, _, _, _, _, h | _ :: _, [], _, _, _, _, _, h => nomatch h
  | (k, v) :: ps, (l, w) :: qs, i, sql, args, args', p, h => by
    obtain ⟨hk, ho, hv, hr⟩ := pairsSameShape_cons h
    simp only [whereLoop]
    rcases (wherePair_sameSql c hL hI k v p l w hk ho hv).cases with
      ⟨e, e', h₁, h₂⟩ | ⟨s, a, a', q, h₁, h₂⟩
    · rw [h₁, h₂]; trivial
    · rw [h₁, h₂]
      exact whereLoop_sameSql c hL hI ps qs (i + 1) _ _ _ q hr

/-- Noninterference of the filter compiler: two filters of the same shape, differing in
field names, scalar values and regex patterns, compiled from the same counter, either
both fail or emit the same SQL text, which then binds the same number of arguments.
No field name or value reaches the text except through `args`. The helpers of package
`common` are assumed to emit the same text for inputs of the same shape. -/
theorem where_noninterference (c : Common) (hL : LogicExprShapeSafe c.logicExpr)
    (hI : InArrayShapeSafe c.inArray) (F₁ F₂ : Document)
    (h : pairsSameShape F₁.pairs F₂.pairs = true) (p : Nat) :
    (∃ e₁ e₂, «where» c F₁ p = .error e₁ ∧ «where» c F₂ p = .error e₂) ∨
      ∃ sql args₁ args₂ q, «where» c F₁ p = .ok (sql, args₁, q) ∧ «where» c F₂ p = .ok (sql, args₂, q) := by
  apply SameSql.cases
  unfold «where»
  obtain ⟨ps, _⟩ := F₁
  obtain ⟨qs, _⟩ := F₂
  dsimp only at h ⊢
  cases ps <;> cases qs
  · exact ⟨rfl, rfl⟩
  all_goals first
    | exact whereLoop_sameSql c hL hI _ _ 0 _ [] [] p h
    | simp at h

theorem joinWith_sameSql (sep : String) :
    ∀ (gs gs' : List (Nat → Compiled)) (p : Nat),
      List.Forall₂ (fun g g' => ∀ q, SameSql (g q) (g' q)) gs gs' →
      SameSql (joinWith sep gs p) (joinWith sep gs' p)
  | [], [], _, _ => ⟨rfl, rfl⟩
  | [_], [_], p, .cons h _ => h p
  | [_], _ :: _ :: _, _, .cons _ h | _ :: _ :: _, [_], _, .cons _ h => by cases h
  | g :: g₂ :: gs, g' :: g₂' :: gs', p, .cons h hr => by
    simp only [joinWith]
    rcases (h p).cases with ⟨e, e', h₁, h₂⟩ | ⟨s, a, a', q, h₁, h₂⟩
    · rw [h₁, h₂]; trivial
    · rw [h₁, h₂]
      dsimp only
      rcases (joinWith_sameSql sep (g₂ :: gs) (g₂' :: gs') q hr).cases with
        ⟨e, e', h₃, h₄⟩ | ⟨s', b, b', q', h₃, h₄⟩
      · rw [h₃, h₄]; trivial
      · rw [h₃, h₄]; exact ⟨rfl, rfl⟩

theorem enclose_sameSql (pre : String) {r r' : Compiled} (h : SameSql r r') :
    SameSql (enclose pre r) (enclose pre r') := by
  rcases h.cases with ⟨e, e', rfl, rfl⟩ | ⟨s, a, a', q, rfl, rfl⟩
  · trivial
  · exact ⟨rfl, rfl⟩

theorem forall₂_of_elemsSameShape :
    ∀ {vs ws : List Value}, elemsSameShape vs ws = true →
      List.Forall₂ (fun v w => sameShape v w = true) vs ws
  | [], [], _ => .nil
  | [], _ :: _, h | _ :: _, [], h => nomatch h
  | v :: vs, w :: ws, h => by
    have h' : (sameShape v w && elemsSameShape vs ws) = true := h
    simp only [Bool.and_eq_true] at h'
    exact .cons h'.1 (forall₂_of_elemsSameShape h'.2)

theorem forall₂_of_pairsSameShape :
    ∀ {ps qs : List (String × Value)}, pairsSameShape ps qs = true →
      List.Forall₂ (fun kv lw => keySameShape kv.1 lw.1 = true ∧
        optionsSameShape kv.1 kv.2 lw.2 = true ∧ sameShape kv.2 lw.2 = true) ps qs
  | [], [], _ => .nil
  | [], _ :: _, h | _ :: _, [], h => nomatch h
  | (_, _) :: _, (_, _) :: _, h => by
    obtain ⟨hk, ho, hv, hr⟩ := pairsSameShape_cons h
    exact .cons ⟨hk, ho, hv⟩ (forall₂_of_pairsSameShape hr)

theorem forall₂_attach_map {α β γ δ : Type} {R : α → β → Prop} {S : γ → δ → Prop} :
    ∀ {l : List α} {l' : List β} (f : {x // x ∈ l} → γ) (f' : {x // x ∈ l'} → δ),
      List.Forall₂ R l l' → (∀ x x', R x.1 x'.1 → S (f x) (f' x')) →
      List.Forall₂ S (l.attach.map f) (l'.attach.map f')
  | [], [], _, _, .nil, _ => .nil
  | _ :: _, _ :: _, f, f', .cons h hr, hf => by
    simp only [List.attach_cons, List.map_cons, List.map_map]
    exact .cons (hf _ _ h) (forall₂_attach_map _ _ hr fun x x' hx => hf _ _ hx)

theorem inArraySpec_shapeSafe : InArrayShapeSafe inArraySpec := by
  intro a a' p f f' ha hf
  refine enclose_sameSql "(" (joinWith_sameSql ", " _ _ p ?_)
  exact List.forall₂_map_left_iff.mpr (List.forall₂_map_right_iff.mpr
    ((forall₂_of_elemsSameShape ha).imp fun v w h q => hf v w q h))

theorem logicExprSpec_shapeSafe : LogicExprShapeSafe logicExprSpec := by
  intro op exprs exprs' p cb cb' he hcb
  have helem : ∀ (e : {x // x ∈ exprs}) (e' : {x // x ∈ exprs'}), sameShape e.1 e'.1 = true →
      ∀ q, SameSql (logicElem exprs cb e.1 e.2 q) (logicElem exprs' cb' e'.1 e'.2 q) := by
    rintro ⟨e, he⟩ ⟨e', he'⟩ hs q
    cases e with
    | document ps =>
      obtain ⟨qs, rfl, hq⟩ := sameShape_document_left hs
      refine enclose_sameSql "(" (joinWith_sameSql " AND " _ _ q ?_)
      refine forall₂_attach_map _ _ (forall₂_of_pairsSameShape hq) ?_
      rintro ⟨⟨k, v⟩, _⟩ ⟨⟨k', v'⟩, _⟩ ⟨hk, ho, hv⟩ q'
      exact hcb k v _ k' v' _ q' hk ho hv
    | _ => cases e' <;> trivial
  have hall : List.Forall₂ (fun g g' => ∀ q, SameSql (g q) (g' q))
      (exprs.attach.map fun e => logicElem exprs cb e.1 e.2)
      (exprs'.attach.map fun e => logicElem exprs' cb' e.1 e.2) :=
    forall₂_attach_map _ _ (forall₂_of_elemsSameShape he) helem
  simp only [logicExprSpec]
  split_ifs
  · exact joinWith_sameSql _ _ _ p hall
  · exact joinWith_sameSql _ _ _ p hall
  · exact enclose_sameSql _ (joinWith_sameSql _ _ _ p hall)
  · trivial

theorem where_noninterference_sample :
    LogicExprShapeSafe specCommon.logicExpr ∧ InArrayShapeSafe specCommon.inArray ∧
      pairsSameShape [("a", .document [("$lt", .int32 5)]), ("$or", .array [.document [("b", .string "x")]])]
        [("z", .document [("$lt", .int32 9)]), ("$or", .array [.document [("y", .string "q")]])] = true ∧
      ((∃ e₁ e₂, «where» specCommon ⟨[("a", .document [("$lt", .int32 5)]),
            ("$or", .array [.document [("b", .string "x")]])], by decide⟩ 0 = .error e₁ ∧
          «where» specCommon ⟨[("z", .document [("$lt", .int32 9)]),
            ("$or", .array [.document [("y", .string "q")]])], by decide⟩ 0 = .error e₂) ∨
        ∃ sql args₁ args₂ q, «where» specCommon ⟨[("a", .document [("$lt", .int32 5)]),
            ("$or", .array [.document [("b", .string "x")]])], by decide⟩ 0 = .ok (sql, args₁, q) ∧
          «where» specCommon ⟨[("z", .document [("$lt", .int32 9)]),
            ("$or", .array [.document [("y", .string "q")]])], by decide⟩ 0 = .ok (sql, args₂, q)) :=
  ⟨logicExprSpec_shapeSafe, inArraySpec_shapeSafe, by decide,
    where_noninterference specCommon logicExprSpec_shapeSafe inArraySpec_shapeSafe _ _ (by decide) 0⟩

end HanaCompat.Jsonb1

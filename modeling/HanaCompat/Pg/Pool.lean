import Mathlib.Logic.Function.Basic

namespace HanaCompat.Pg

/-- The fields of `pgxpool.Config` that `NewPool` writes. -/
structure PoolConfig where
  lazyConnect : Bool
  runtimeParams : String → Option String

inductive NewPoolError (E : Type) where
  /-- `fmt.Errorf("pg.NewPool: %w", err)` around an error of pgx. -/
  | wrap (err : E)
  /-- `fmt.Errorf` on a setting, its format and operands left unformatted. -/
  | setting (format : String) (args : List String)

variable {E : Type}

def encodingCheck (name setting : String) : Option (NewPoolError E) :=
  if setting ≠ "UTF8" then some (.setting "pg.NewPool: %q is %q, want %q" [name, setting, "UTF8"])
  else none

def localeCheck (name setting : String) : Option (NewPoolError E) :=
  if setting ≠ "C" ∧ setting ≠ "POSIX" ∧ setting ≠ "en_US.utf8" then
    some (.setting "pg.NewPool: %q is %q" [name, setting])
  else none

/-- The `switch name` of the loop: the error it returns, or `none` to go on. -/
def checkSetting (name setting : String) : Option (NewPoolError E) :=
  match name with
  | "server_encoding" => encodingCheck name setting
  | "client_encoding" => encodingCheck name setting
  | "lc_collate" => localeCheck name setting
  | "lc_ctype" => localeCheck name setting
  | _ => none

/-- The loop `for rows.Next()`, over what `rows.Scan` gives for each row. The loop ends when
`Next` does, and `rows.Err()` is not read. -/
def checkRows : List (Except E (String × String × String)) → Except (NewPoolError E) Unit
  | [] => .ok ()
  | .error err :: _ => .error (.wrap err)
  | .ok (name, setting, _) :: rows =>
    match checkSetting name setting with
    | some err => .error err
    | none => checkRows rows

def configure (config : PoolConfig) (lazy : Bool) : PoolConfig :=
  { lazyConnect := lazy
    runtimeParams :=
      Function.update (Function.update (Function.update config.runtimeParams
        "timezone" (some "UTC")) "application_name" (some "MangoDB")) "search_path" (some "") }

/-- `NewPool`: parse the connection string, set the runtime parameters, connect, and unless
the pool is lazy check the settings `SHOW ALL` lists. pgx is absent from src/:
`pgxpool.ParseConfig`, `pgxpool.ConnectConfig` and the rows of `SHOW ALL` are parameters,
with errors of any type `E`; the logger is left out. -/
def newPool {Pool : Type} (parseConfig : String → Except E PoolConfig)
    (connectConfig : PoolConfig → Except E Pool)
    (showAll : Pool → Except E (List (Except E (String × String × String))))
    (connString : String) (lazy : Bool) : Except (NewPoolError E) Pool := do
  let config ← (parseConfig connString).mapError .wrap
  let p ← (connectConfig (configure config lazy)).mapError .wrap
  if !lazy then
    let rows ← (showAll p).mapError .wrap
    checkRows rows
  return p

def SettingOK (name setting : String) : Prop :=
  ((name = "server_encoding" ∨ name = "client_encoding") → setting = "UTF8") ∧
  ((name = "lc_collate" ∨ name = "lc_ctype") →
    setting = "C" ∨ setting = "POSIX" ∨ setting = "en_US.utf8")

def RowOK (row : Except E (String × String × String)) : Prop :=
  ∃ name setting description, row = .ok (name, setting, description) ∧ SettingOK name setting

/-- `rows` fail first at the row of `name` and `setting`: every row before it scanned and
passed. -/
def FirstFailure (rows : List (Except E (String × String × String))) (name setting : String) :
    Prop :=
  ∃ pre description rest, rows = pre ++ .ok (name, setting, description) :: rest ∧
    (∀ r ∈ pre, RowOK r) ∧ ¬SettingOK name setting

theorem checkSetting_eq_none {name setting : String} :
    @checkSetting E name setting = none ↔ SettingOK name setting := by
  unfold checkSetting SettingOK
  split <;> simp_all [encodingCheck, localeCheck, or_iff_not_imp_left]

theorem checkSetting_eq_some {name setting : String} {err : NewPoolError E}
    (h : checkSetting name setting = some err) :
    ∃ format rest, err = .setting format (name :: setting :: rest) := by
  unfold checkSetting at h
  split at h <;> simp only [encodingCheck, localeCheck, reduceCtorEq] at h <;> split at h <;>
    cases h <;> exact ⟨_, _, rfl⟩

theorem checkRows_eq_ok : ∀ {rows : List (Except E (String × String × String))},
    checkRows rows = .ok () ↔ ∀ r ∈ rows, RowOK r
  | [] => by simp [checkRows]
  | .error err :: rows => by simp [checkRows, RowOK]
  | .ok (name, setting, description) :: rows => by
    have hrow : RowOK (.ok (name, setting, description) : Except E _) ↔ SettingOK name setting :=
      ⟨fun ⟨_, _, _, h, hs⟩ => by cases h; exact hs, fun hs => ⟨_, _, _, rfl, hs⟩⟩
    rw [List.forall_mem_cons, hrow, ← @checkSetting_eq_none E, checkRows]
    cases checkSetting name setting <;> simp [checkRows_eq_ok]

theorem checkRows_eq_error_setting : ∀ {rows : List (Except E (String × String × String))}
    {format : String} {args : List String}, checkRows rows = .error (.setting format args) →
    ∃ name setting, FirstFailure rows name setting ∧ args.take 2 = [name, setting]
  | [], _, _, h => by cases h
  | .error _ :: _, _, _, h => by cases h
  | .ok (name, setting, description) :: rows, _, _, h => by
    rw [checkRows] at h
    cases hc : checkSetting name setting with
    | some err =>
      rw [hc] at h
      cases h
      obtain ⟨_, _, he⟩ := checkSetting_eq_some hc
      refine ⟨name, setting, ⟨[], description, rows, rfl, nofun, fun hs => ?_⟩, by cases he; rfl⟩
      rw [← @checkSetting_eq_none E, hc] at hs
      cases hs
    | none =>
      rw [hc] at h
      obtain ⟨n, s, ⟨pre, d, rest, rfl, hpre, hbad⟩, hargs⟩ := checkRows_eq_error_setting h
      exact ⟨n, s, ⟨.ok (name, setting, description) :: pre, d, rest, rfl,
        List.forall_mem_cons.mpr ⟨⟨_, _, _, rfl, checkSetting_eq_none.mp hc⟩, hpre⟩, hbad⟩, hargs⟩

section NewPool

theorem bind_mapError_eq_ok {α β : Type} {x : Except E α} {f : α → Except (NewPoolError E) β}
    {b : β} : (x.mapError .wrap >>= f) = .ok b ↔ ∃ a, x = .ok a ∧ f a = .ok b := by
  cases x <;> simp [Except.mapError, bind, Except.bind]

theorem bind_mapError_eq_setting {α β : Type} {x : Except E α}
    {f : α → Except (NewPoolError E) β} {format : String} {args : List String} :
    (x.mapError .wrap >>= f) = .error (.setting format args) ↔
      ∃ a, x = .ok a ∧ f a = .error (.setting format args) := by
  cases x <;> simp [Except.mapError, bind, Except.bind]

theorem checkRows_bind_eq_error {rows : List (Except E (String × String × String))} {a : Pool}
    {err : NewPoolError E} : (checkRows rows >>= fun _ => pure a) = .error err ↔
      checkRows rows = .error err := by
  cases checkRows rows <;> simp [bind, Except.bind, pure, Except.pure]

theorem checkRows_bind_eq_ok {rows : List (Except E (String × String × String))} {a p : Pool} :
    (checkRows rows >>= fun _ => pure a) = .ok p ↔ (∀ r ∈ rows, RowOK r) ∧ a = p := by
  rw [← checkRows_eq_ok]
  cases checkRows rows <;> simp [bind, Except.bind, pure, Except.pure]

variable {Pool : Type} {parseConfig : String → Except E PoolConfig}
  {connectConfig : PoolConfig → Except E Pool}
  {showAll : Pool → Except E (List (Except E (String × String × String)))}
  {connString : String} {lazy : Bool}

/-- `NewPool` returns a pool exactly when the connection string parses, the pool connects
with the parameters `NewPool` sets, and, unless it is lazy, every row of `SHOW ALL` scans and
has a UTF8 encoding and a C, POSIX or en_US.utf8 collation and character type. -/
theorem newPool_eq_ok {p : Pool} :
    newPool parseConfig connectConfig showAll connString lazy = .ok p ↔
      ∃ config, parseConfig connString = .ok config ∧
        connectConfig (configure config lazy) = .ok p ∧
        (lazy = false → ∃ rows, showAll p = .ok rows ∧ ∀ r ∈ rows, RowOK r) := by
  unfold newPool
  simp only [bind_mapError_eq_ok]
  refine exists_congr fun config => and_congr_right fun _ => ?_
  cases lazy with
  | true => simp [pure, Except.pure, bind, Except.bind]
  | false =>
    simp only [Bool.not_false, if_true, bind_mapError_eq_ok, checkRows_bind_eq_ok, forall_const]
    constructor
    · rintro ⟨_, hp, rows, hs, hrows, rfl⟩
      exact ⟨hp, rows, hs, hrows⟩
    · rintro ⟨hp, rows, hs, hrows⟩
      exact ⟨p, hp, rows, hs, hrows, rfl⟩

/-- A setting error comes from a pool that is not lazy, connected, whose `SHOW ALL` has a
first row that fails; the error names that row's setting and its value, and every row
before it scanned and passed. -/
theorem newPool_setting_error {format : String} {args : List String}
    (h : newPool parseConfig connectConfig showAll connString lazy = .error (.setting format args)) :
    lazy = false ∧ ∃ config p rows, parseConfig connString = .ok config ∧
      connectConfig (configure config lazy) = .ok p ∧ showAll p = .ok rows ∧
      ∃ name setting, FirstFailure rows name setting ∧ args.take 2 = [name, setting] := by
  unfold newPool at h
  obtain ⟨config, hc, h⟩ := bind_mapError_eq_setting.mp h
  obtain ⟨p, hp, h⟩ := bind_mapError_eq_setting.mp h
  cases lazy with
  | true => simp [pure, Except.pure, bind, Except.bind] at h
  | false =>
    simp only [Bool.not_false, if_true] at h
    obtain ⟨rows, hs, h⟩ := bind_mapError_eq_setting.mp h
    exact ⟨rfl, config, p, rows, hc, hp, hs, checkRows_eq_error_setting (checkRows_bind_eq_error.mp h)⟩

end NewPool

theorem newPool_setting_error_collate :
    newPool (fun _ => (.ok ⟨false, fun _ => none⟩ : Except String PoolConfig))
        (fun _ => (.ok () : Except String Unit))
        (fun _ => .ok [.ok ("server_encoding", "UTF8", ""), .ok ("lc_collate", "de_DE", "")]) "" false =
      .error (.setting "pg.NewPool: %q is %q" ["lc_collate", "de_DE"]) ∧
    false = false ∧ ∃ config p rows, (.ok ⟨false, fun _ => none⟩ : Except String PoolConfig) = .ok config ∧
      (.ok () : Except String Unit) = .ok p ∧
      (.ok [.ok ("server_encoding", "UTF8", ""), .ok ("lc_collate", "de_DE", "")] :
        Except String (List (Except String (String × String × String)))) = .ok rows ∧
      ∃ name setting, FirstFailure rows name setting ∧
        ["lc_collate", "de_DE"].take 2 = [name, setting] := by
  have h : newPool (fun _ => (.ok ⟨false, fun _ => none⟩ : Except String PoolConfig))
      (fun _ => (.ok () : Except String Unit))
      (fun _ => .ok [.ok ("server_encoding", "UTF8", ""), .ok ("lc_collate", "de_DE", "")]) "" false =
    .error (.setting "pg.NewPool: %q is %q" ["lc_collate", "de_DE"]) := rfl
  exact ⟨h, newPool_setting_error h⟩

end HanaCompat.Pg

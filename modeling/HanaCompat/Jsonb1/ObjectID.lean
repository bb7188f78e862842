import Mathlib.Algebra.Group.Nat.Basic
import Mathlib.Data.List.Nodup
import Mathlib.Data.List.Perm.Basic
import HanaCompat.Types

namespace HanaCompat.Jsonb1

/-- `objectIDProcess`: the five random bytes `init` reads. -/
structure ObjectIDProcess where
  bytes : List UInt8
  length_eq : bytes.length = 5

def putUint32BE (x : BitVec 32) : List UInt8 :=
  [UInt8.ofNat (x >>> 24).toNat, UInt8.ofNat (x >>> 16).toNat, UInt8.ofNat (x >>> 8).toNat,
    UInt8.ofNat x.toNat]

/-- The twelve bytes of `res`: the seconds, the process bytes, and `c` without its most
significant byte. -/
def objectIDOf (seconds : BitVec 32) (process : ObjectIDProcess) (c : BitVec 32) : ObjectID :=
  ⟨putUint32BE seconds ++ process.bytes ++
      [UInt8.ofNat (c >>> 16).toNat, UInt8.ofNat (c >>> 8).toNat, UInt8.ofNat c.toNat],
    by simp [putUint32BE, process.length_eq]⟩

/-- `generateObjectID` in one piece: `t.Unix()` is `now`, and `atomic.AddUint32` returns the
counter after its increment, which is also the counter's new value. -/
def generateObjectID (now : Int) (process : ObjectIDProcess) (objectIDCounter : BitVec 32) :
    ObjectID × BitVec 32 :=
  let c := objectIDCounter + 1
  (objectIDOf (BitVec.ofInt 32 now) process c, c)

/-- Where one call of `generateObjectID` is: not started, past reading the clock, past its
atomic increment (with the value it returned), or returned. -/
inductive Call where
  | idle
  | clocked (seconds : BitVec 32)
  | counted (seconds c : BitVec 32)
  | done (seconds c : BitVec 32)
deriving DecidableEq

def Call.ticket : Call → Option (BitVec 32)
  | .counted _ c | .done _ c => some c
  | _ => none

def Call.isDone : Call → Bool
  | .done .. => true
  | _ => false

def Call.result (process : ObjectIDProcess) : Call → Option ObjectID
  | .done seconds c => some (objectIDOf seconds process c)
  | _ => none

structure Callers where
  objectIDCounter : BitVec 32
  calls : List Call

/-- One step of call `i` of `generateObjectID`: reading the clock (which may return
anything), the atomic increment of `objectIDCounter`, the only state the calls share, or
writing the counter bytes and returning. A schedule is any list of steps; a step a call is
not ready for changes nothing. -/
inductive Event where
  | clock (i : Nat) (now : Int)
  | add (i : Nat)
  | finish (i : Nat)

def step (s : Callers) : Event → Callers
  | .clock i now =>
    match s.calls[i]? with
    | some .idle => ⟨s.objectIDCounter, s.calls.set i (.clocked (BitVec.ofInt 32 now))⟩
    | _ => s
  | .add i =>
    match s.calls[i]? with
    | some (.clocked seconds) =>
      ⟨s.objectIDCounter + 1, s.calls.set i (.counted seconds (s.objectIDCounter + 1))⟩
    | _ => s
  | .finish i =>
    match s.calls[i]? with
    | some (.counted seconds c) => ⟨s.objectIDCounter, s.calls.set i (.done seconds c)⟩
    | _ => s

def run (s : Callers) (events : List Event) : Callers := events.foldl step s

def start (c0 : BitVec 32) (n : Nat) : Callers := ⟨c0, List.replicate n .idle⟩

def Call.seconds : Call → Option (BitVec 32)
  | .idle => none
  | .clocked seconds | .counted seconds _ | .done seconds _ => some seconds

/-- Every call past its clock read holds the seconds of a clock event of the schedule for it. -/
def ClockedBy (events : List Event) (s : Callers) : Prop :=
  ∀ i seconds, s.calls[i]?.bind Call.seconds = some seconds →
    ∃ now, Event.clock i now ∈ events ∧ seconds = BitVec.ofInt 32 now

theorem ClockedBy.mono {events : List Event} {s : Callers} (h : ClockedBy events s) (more : List Event) :
    ClockedBy (events ++ more) s := fun i seconds hi =>
  let ⟨now, hm, hs⟩ := h i seconds hi
  ⟨now, List.mem_append_left more hm, hs⟩

theorem ClockedBy.set {events : List Event} {s : Callers} (h : ClockedBy events s) {i : Nat}
    {a : Call} (hi : s.calls[i]? = some a) (b : Call)
    (hb : b.seconds = a.seconds ∨ ∃ now, Event.clock i now ∈ events ∧ b.seconds = some (BitVec.ofInt 32 now))
    (c : BitVec 32) : ClockedBy events ⟨c, s.calls.set i b⟩ := by
  intro j seconds hj
  by_cases hij : i = j
  · subst hij
    rw [List.getElem?_set_self (List.getElem?_eq_some_iff.mp hi).1, Option.some_bind] at hj
    rcases hb with hb | ⟨now, hm, hb⟩
    · exact h i seconds (by rw [hi, Option.some_bind, ← hb, hj])
    · exact ⟨now, hm, Option.some.inj (hj.symm.trans hb)⟩
  · rw [List.getElem?_set_ne hij] at hj
    exact h j seconds hj

/-- Reading the clock records what it returned; the other steps keep a call's seconds. -/
theorem step_clockedBy {events : List Event} {s : Callers} (h : ClockedBy events s) (e : Event) :
    ClockedBy (events ++ [e]) (step s e) := by
  cases e with
  | clock i now =>
    simp only [step]
    split
    · rename_i hi
      exact (h.mono [_]).set hi (.clocked _) (.inr ⟨now, List.mem_append_right _ (List.mem_singleton_self _), rfl⟩) _
    · exact h.mono [_]
  | add i =>
    simp only [step]
    split
    · rename_i hi
      exact (h.mono [_]).set hi (.counted _ _) (.inl rfl) _
    · exact h.mono [_]
  | finish i =>
    simp only [step]
    split
    · rename_i hi
      exact (h.mono [_]).set hi (.done _ _) (.inl rfl) _
    · exact h.mono [_]

theorem run_clockedBy : ∀ (s : Callers) (pre events : List Event), ClockedBy pre s →
    ClockedBy (pre ++ events) (run s events)
  | _, pre, [], h => by simpa [run] using h
  | s, pre, e :: events, h => by
    simpa using run_clockedBy (step s e) (pre ++ [e]) events (step_clockedBy h e)

/-- Whatever the interleaving, every call that has returned holds the ObjectID that
`generateObjectID` computes from a value its clock read returned and the counter value its
atomic increment moved on from. -/
theorem run_result_of_done (c0 : BitVec 32) (n : Nat) (process : ObjectIDProcess)
    (events : List Event) {i : Nat} {seconds c : BitVec 32}
    (h : (run (start c0 n) events).calls[i]? = some (.done seconds c)) :
    ∃ now, Event.clock i now ∈ events ∧
      (run (start c0 n) events).calls[i]?.bind (Call.result process) =
        some (generateObjectID now process (c - 1)).1 := by
  have hstart : ClockedBy [] (start c0 n) := by
    intro j seconds hj
    simp only [start, List.getElem?_replicate] at hj
    split at hj <;> cases hj
  obtain ⟨now, hm, hs⟩ := run_clockedBy _ [] events hstart i seconds (by rw [h]; rfl)
  refine ⟨now, List.nil_append events ▸ hm, ?_⟩
  rw [h, hs]
  simp [Call.result, generateObjectID, BitVec.sub_add_cancel]

theorem run_result_of_done_wraparound :
    (run (start (BitVec.ofNat 32 (2 ^ 32 - 1)) 2) [.clock 0 1700000000, .clock 1 (-5), .add 1,
        .add 0, .finish 1, .finish 0]).calls[0]? = some (.done (BitVec.ofInt 32 1700000000) 1) ∧
      ∃ now, Event.clock 0 now ∈ [Event.clock 0 1700000000, .clock 1 (-5), .add 1, .add 0, .finish 1,
          .finish 0] ∧
        (run (start (BitVec.ofNat 32 (2 ^ 32 - 1)) 2) [.clock 0 1700000000, .clock 1 (-5), .add 1,
            .add 0, .finish 1, .finish 0]).calls[0]?.bind (Call.result ⟨[1, 2, 3, 4, 5], rfl⟩) =
          some (generateObjectID now ⟨[1, 2, 3, 4, 5], rfl⟩ (1 - 1)).1 :=
  ⟨rfl, run_result_of_done _ 2 ⟨[1, 2, 3, 4, 5], rfl⟩ _ rfl⟩

def counterField (id : ObjectID) : Nat := (id.bytes.drop 9).foldl (fun acc b => acc * 256 + b.toNat) 0

theorem counterField_objectIDOf (seconds : BitVec 32) (process : ObjectIDProcess) (c : BitVec 32) :
    counterField (objectIDOf seconds process c) = c.toNat % 2 ^ 24 := by
  have hd : (putUint32BE seconds ++ process.bytes).length = 9 := by
    simp [putUint32BE, process.length_eq]
  simp only [counterField, objectIDOf]
  rw [List.drop_left' hd]
  simp only [List.foldl_cons, List.foldl_nil, toNat_byte, BitVec.toNat_ushiftRight,
    Nat.shiftRight_eq_div_pow]
  omega

theorem filterMap_set {α β : Type} (f : α → Option β) :
    ∀ {l : List α} {i : Nat} {a : α}, l[i]? = some a → ∀ b : α,
      ∃ u v, l.filterMap f = u ++ (f a).toList ++ v ∧ (l.set i b).filterMap f = u ++ (f b).toList ++ v
  | [], _, _, h, _ => nomatch h
  | x :: xs, 0, a, h, b => by
    obtain rfl : x = a := by simpa using h
    exact ⟨[], xs.filterMap f, by cases hx : f x <;> simp [List.filterMap_cons, hx],
      by cases hb : f b <;> simp [List.filterMap_cons, hb]⟩
  | x :: xs, i + 1, a, h, b => by
    obtain ⟨u, v, h₁, h₂⟩ := filterMap_set f (l := xs) (by simpa using h) b
    refine ⟨(f x).toList ++ u, v, ?_, ?_⟩ <;> cases hx : f x <;> simp [List.filterMap_cons, hx, h₁, h₂]

/-- The tickets drawn so far: the counter has moved `k` times from `c0`, and the calls past
their increment hold `c0 + 1, …, c0 + k`, each once. -/
def Drawn (c0 : BitVec 32) (s : Callers) : Prop :=
  ∃ k, s.objectIDCounter = c0 + BitVec.ofNat 32 k ∧
    (s.calls.filterMap Call.ticket).Perm ((List.range k).map fun j => c0 + BitVec.ofNat 32 (j + 1))

theorem step_length (s : Callers) (e : Event) : (step s e).calls.length = s.calls.length := by
  cases e <;> simp only [step] <;> split <;> simp

theorem drawn_set {c0 : BitVec 32} {s : Callers} (h : Drawn c0 s) {i : Nat} {a : Call}
    (hi : s.calls[i]? = some a) (b : Call) (hb : b.ticket = a.ticket) :
    Drawn c0 ⟨s.objectIDCounter, s.calls.set i b⟩ := by
  obtain ⟨k, hc, hp⟩ := h
  obtain ⟨u, v, h₁, h₂⟩ := filterMap_set Call.ticket hi b
  exact ⟨k, hc, by rw [h₂, hb, ← h₁]; exact hp⟩

theorem step_drawn {c0 : BitVec 32} {s : Callers} (h : Drawn c0 s) (e : Event) :
    Drawn c0 (step s e) := by
  cases e with
  | clock i now =>
    simp only [step]
    split
    · rename_i hi
      exact drawn_set h hi _ rfl
    · exact h
  | add i =>
    simp only [step]
    split
    · rename_i seconds hi
      obtain ⟨k, hc, hp⟩ := h
      obtain ⟨u, v, h₁, h₂⟩ := filterMap_set Call.ticket hi (.counted seconds (s.objectIDCounter + 1))
      have hnext : s.objectIDCounter + 1 = c0 + BitVec.ofNat 32 (k + 1) := by
        rw [hc, BitVec.ofNat_add, BitVec.add_assoc]
        rfl
      refine ⟨k + 1, hnext, ?_⟩
      rw [h₂]
      simp only [Call.ticket, Option.toList_none, Option.toList_some, List.append_nil] at h₁ ⊢
      rw [hnext, List.range_succ, List.map_append, List.map_singleton]
      have hmid : (u ++ [c0 + BitVec.ofNat 32 (k + 1)] ++ v).Perm
          ((c0 + BitVec.ofNat 32 (k + 1)) :: (u ++ v)) := by
        rw [List.append_assoc, List.singleton_append]
        exact List.perm_middle
      exact hmid.trans (((h₁ ▸ hp).cons _).trans (List.perm_append_singleton _ _).symm)
    · exact h
  | finish i =>
    simp only [step]
    split
    · rename_i seconds c hi
      exact drawn_set h hi _ rfl
    · exact h

theorem run_drawn {c0 : BitVec 32} : ∀ {s : Callers} (events : List Event), Drawn c0 s →
    Drawn c0 (run s events) ∧ (run s events).calls.length = s.calls.length
  | _, [], h => ⟨h, rfl⟩
  | s, e :: es, h => by
    obtain ⟨h₁, h₂⟩ := run_drawn (s := step s e) es (step_drawn h e)
    exact ⟨h₁, h₂.trans (step_length s e)⟩

theorem drawn_start (c0 : BitVec 32) (n : Nat) : Drawn c0 (start c0 n) :=
  ⟨0, by simp [start], by simp [start, Call.ticket]⟩

theorem nodup_counterFields (c0 n : Nat) (hn : n ≤ 2 ^ 24) :
    ((List.range' 1 n).map fun i => (c0 + i) % 2 ^ 24).Nodup := by
  refine (List.nodup_range' 1 n).map_on fun i hi j hj h => ?_
  rw [List.mem_range'_1] at hi hj
  omega

theorem counterFields_of_done (process : ObjectIDProcess) :
    ∀ calls : List Call, calls.all Call.isDone = true →
      (calls.filterMap (Call.result process)).map counterField =
          (calls.filterMap Call.ticket).map (fun c => c.toNat % 2 ^ 24) ∧
        (calls.filterMap Call.ticket).length = calls.length
  | [], _ => ⟨rfl, rfl⟩
  | call :: rest, h => by
    simp only [List.all_cons, Bool.and_eq_true] at h
    obtain ⟨ih₁, ih₂⟩ := counterFields_of_done process rest h.2
    cases call <;> simp_all [Call.isDone, Call.result, Call.ticket, counterField_objectIDOf]

/-- Whatever the clock returns and however the calls interleave, once the `n ≤ 2 ^ 24` calls
have returned, their counter bytes read big-endian are `(c0 + i) mod 2 ^ 24` for
`i = 1, …, n`, each once, across the wraparound of the 32-bit counter; so the counter bytes,
and the ObjectIDs, are pairwise distinct. -/
theorem generateObjectID_distinct (c0 : BitVec 32) (n : Nat) (hn : n ≤ 2 ^ 24)
    (process : ObjectIDProcess) (events : List Event)
    (hdone : (run (start c0 n) events).calls.all Call.isDone = true) :
    let ids := (run (start c0 n) events).calls.filterMap (Call.result process)
    ids.length = n ∧
      (ids.map counterField).Perm ((List.range' 1 n).map fun i => (c0.toNat + i) % 2 ^ 24) ∧
      (ids.map fun id => id.bytes.drop 9).Nodup ∧ ids.Nodup := by
  intro ids
  obtain ⟨⟨k, -, hp⟩, hlen⟩ := run_drawn events (drawn_start c0 n)
  obtain ⟨hfields, htickets⟩ := counterFields_of_done process _ hdone
  have hn' : (run (start c0 n) events).calls.length = n := by simpa [start] using hlen
  have hk : k = n := by simpa [htickets, hn'] using hp.length_eq.symm
  subst hk
  have hperm : (ids.map counterField).Perm ((List.range' 1 k).map fun i => (c0.toNat + i) % 2 ^ 24) := by
    rw [hfields, List.range'_eq_map_range, List.map_map]
    refine (hp.map _).trans (.of_eq ?_)
    simp only [List.map_map]
    refine List.map_congr_left fun j _ => ?_
    simp only [Function.comp, BitVec.toNat_add, BitVec.toNat_ofNat]
    omega
  have hnodup := hperm.nodup_iff.mpr (nodup_counterFields c0.toNat k hn)
  have hlen_ids : ids.length = k := by
    rw [← List.length_map ids counterField, hperm.length_eq, List.length_map, List.length_range']
  refine ⟨hlen_ids, hperm, ?_, hnodup.of_map _⟩
  refine List.Nodup.of_map (fun bs => bs.foldl (fun acc b => acc * 256 + b.toNat) 0) ?_
  simpa only [List.map_map] using hnodup

theorem generateObjectID_distinct_wraparound :
    2 ≤ 2 ^ 24 ∧
      (run (start (BitVec.ofNat 32 (2 ^ 32 - 1)) 2) [.clock 0 1700000000, .clock 1 (-5), .add 1,
        .add 0, .finish 1, .finish 0]).calls.all Call.isDone = true ∧
      let ids := (run (start (BitVec.ofNat 32 (2 ^ 32 - 1)) 2) [.clock 0 1700000000, .clock 1 (-5),
        .add 1, .add 0, .finish 1, .finish 0]).calls.filterMap (Call.result ⟨[1, 2, 3, 4, 5], rfl⟩)
      ids.length = 2 ∧
        (ids.map counterField).Perm ((List.range' 1 2).map fun i =>
          ((BitVec.ofNat 32 (2 ^ 32 - 1)).toNat + i) % 2 ^ 24) ∧
        (ids.map fun id => id.bytes.drop 9).Nodup ∧ ids.Nodup :=
  ⟨by decide, rfl, generateObjectID_distinct _ 2 (by decide) ⟨[1, 2, 3, 4, 5], rfl⟩ _ rfl⟩

/-- No update of the shared counter is lost or made twice: however the calls interleave, once
all `n` have returned the counter has moved exactly `n` times, and the calls drew each of
`c0 + 1, …, c0 + n` once. -/
theorem run_counter_of_done (c0 : BitVec 32) (n : Nat) (events : List Event)
    (hdone : (run (start c0 n) events).calls.all Call.isDone = true) :
    (run (start c0 n) events).objectIDCounter = c0 + BitVec.ofNat 32 n ∧
      ((run (start c0 n) events).calls.filterMap Call.ticket).Perm
        ((List.range n).map fun j => c0 + BitVec.ofNat 32 (j + 1)) := by
  obtain ⟨⟨k, hc, hp⟩, hlen⟩ := run_drawn events (drawn_start c0 n)
  have htickets := (counterFields_of_done ⟨[0, 0, 0, 0, 0], rfl⟩ _ hdone).2
  have hn : (run (start c0 n) events).calls.length = n := by simpa [start] using hlen
  have hk : k = n := by simpa [htickets, hn] using hp.length_eq.symm
  rw [hk] at hc hp
  exact ⟨hc, hp⟩

theorem run_counter_of_done_wraparound :
    (run (start (BitVec.ofNat 32 (2 ^ 32 - 1)) 2) [.clock 0 1700000000, .clock 1 (-5), .add 1,
        .add 0, .finish 1, .finish 0]).calls.all Call.isDone = true ∧
      (run (start (BitVec.ofNat 32 (2 ^ 32 - 1)) 2) [.clock 0 1700000000, .clock 1 (-5), .add 1,
          .add 0, .finish 1, .finish 0]).objectIDCounter =
        BitVec.ofNat 32 (2 ^ 32 - 1) + BitVec.ofNat 32 2 ∧
      ((run (start (BitVec.ofNat 32 (2 ^ 32 - 1)) 2) [.clock 0 1700000000, .clock 1 (-5), .add 1,
          .add 0, .finish 1, .finish 0]).calls.filterMap Call.ticket).Perm
        ((List.range 2).map fun j => BitVec.ofNat 32 (2 ^ 32 - 1) + BitVec.ofNat 32 (j + 1)) :=
  ⟨rfl, run_counter_of_done _ 2 _ rfl⟩

end HanaCompat.Jsonb1

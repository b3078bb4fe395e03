import Mathlib
import GraphIngest.Proofs.Convert.Replay

/-! # How a batcher answers requests

The workers of a phase ask one batcher for batches, each of a size of its own; the batcher's lock
puts all requests in one order, so what the workers get is what a run of requests gets, one after
another (`Batcher.answers`, `batches_follow_requests`).
-/

namespace GraphIngest

namespace Batcher

/-! ## Runs of requests -/

/-- The answers to requests for batches of the given sizes, made one after another, and the
batcher after them. -/
def answers (b : Batcher) : List Nat → List (Except ConvertError (Option Batch)) × Batcher
  | [] => ([], b)
  | s :: ss => ((b.next s).1 :: ((b.next s).2.answers ss).1, ((b.next s).2.answers ss).2)

/-- The batches among answers, in order. -/
def handedOut (as : List (Except ConvertError (Option Batch))) : List Batch :=
  as.filterMap fun a => a.toOption.join

/-- How many records the first `k` requests ask for, each for at least one. -/
def asked (ss : List Nat) (k : Nat) : Nat := ((ss.take k).map (max · 1)).sum

@[simp] theorem answers_nil (b : Batcher) : b.answers [] = ([], b) := rfl

theorem answers_cons (b : Batcher) (s : Nat) (ss : List Nat) :
    b.answers (s :: ss) = ((b.next s).1 :: ((b.next s).2.answers ss).1, ((b.next s).2.answers ss).2) :=
  rfl

@[simp] theorem length_answers (ss : List Nat) : ∀ b : Batcher, (b.answers ss).1.length = ss.length := by
  induction ss with
  | nil => intro b; rfl
  | cons s ss ih => intro b; simp [answers_cons, ih]

@[simp] theorem asked_zero (ss : List Nat) : asked ss 0 = 0 := by simp [asked]

@[simp] theorem asked_nil (k : Nat) : asked [] k = 0 := by simp [asked]

theorem asked_cons_succ (s : Nat) (ss : List Nat) (k : Nat) :
    asked (s :: ss) (k + 1) = max s 1 + asked ss k := by
  simp [asked]

/-! ## Every batcher -/

theorem answers_exhausted (ss : List Nat) : ∀ b : Batcher, b.exhausted = true →
    b.answers ss = (ss.map fun _ => .ok none, b) := by
  induction ss with
  | nil => intro b _; rfl
  | cons s ss ih =>
    intro b hx
    have hnext : b.next s = (.ok none, b) := by simp [next, hx]
    simp [answers_cons, hnext, ih b hx]

theorem getElem?_answers_exhausted {b : Batcher} (hx : b.exhausted = true) {ss : List Nat} {k : Nat}
    (hk : k < ss.length) : (b.answers ss).1[k]? = some (.ok none) := by
  simp [answers_exhausted ss b hx, hk]

theorem next_exhausted_of_none {b b' : Batcher} {s : Nat} {res : Except ConvertError (Option Batch)}
    (hn : b.next s = (res, b')) (hres : res.toOption.join = none) : b'.exhausted = true := by
  unfold next at hn
  split at hn
  · cases hn; assumption
  · split at hn
    · split at hn <;> cases hn
      · rfl
      · simp [Except.toOption] at hres
    · split at hn <;> cases hn
      · rfl
      · rfl
      · simp [Except.toOption] at hres

theorem answers_stay_none (ss : List Nat) : ∀ (b : Batcher) (k j : Nat) (a : Except ConvertError (Option Batch)),
    k < j → j < ss.length → (b.answers ss).1[k]? = some a → a.toOption.join = none →
      (b.answers ss).1[j]? = some (.ok none) := by
  induction ss with
  | nil => intro b k j a _ hj; simp at hj
  | cons s ss ih =>
    intro b k j a hkj hj hk ha
    obtain ⟨j, rfl⟩ : ∃ j', j = j' + 1 := ⟨j - 1, by omega⟩
    rw [answers_cons, List.getElem?_cons_succ]
    cases k with
    | zero =>
      -- the batcher is dry after the first answer
      rcases hn : b.next s with ⟨res, b'⟩
      rw [answers_cons, hn] at hk
      obtain rfl : res = a := by simpa using hk
      exact getElem?_answers_exhausted (next_exhausted_of_none hn ha) (by simpa using hj)
    | succ k =>
      rw [answers_cons, List.getElem?_cons_succ] at hk
      exact ih _ k j a (by omega) (by simpa using hj) hk ha

theorem nextIndex_answers (ss : List Nat) : ∀ b : Batcher,
    (b.answers ss).2.nextIndex = b.nextIndex + (handedOut (b.answers ss).1).length := by
  induction ss with
  | nil => intro b; simp [handedOut]
  | cons s ss ih =>
    intro b
    rcases hn : b.next s with ⟨res, b'⟩
    have hidx := next_nextIndex hn
    simp only [answers_cons, hn, handedOut, List.filterMap_cons]
    rw [ih b', hidx]
    rcases res with _ | _ | x
    · simp [Except.toOption, handedOut]
    · simp [Except.toOption, handedOut]
    · simp [Except.toOption, handedOut]
      omega

/-! ## A pass of records -/

/-- Taking records off a pass with a fault after the records `rs`: what is asked for if that many
are there before the fault, else the fault, with the items after it left. -/
theorem takeRecords_fault (e : SourceError) (more : List Item) : ∀ (n : Nat) (rs acc : List Record),
    takeRecords n (rs.map .ok ++ .error e :: more) acc =
      if n ≤ rs.length then (.ok (acc.reverse ++ rs.take n), (rs.drop n).map .ok ++ .error e :: more)
      else (.error e, more)
  | 0, rs, acc => by simp [takeRecords]
  | n + 1, [], acc => by simp [takeRecords]
  | n + 1, r :: rs, acc => by
    simp only [List.map_cons, List.cons_append, takeRecords, takeRecords_fault e more n rs (r :: acc)]
    by_cases h : n ≤ rs.length <;> simp [h]

theorem next_of_stream_nil {b : Batcher} (hf : b.feed = .stream []) (hx : b.exhausted = false)
    (s : Nat) : b.next s = (.ok none, { b with exhausted := true }) := by
  obtain ⟨m, hm⟩ : ∃ m, max s 1 = m + 1 := ⟨max s 1 - 1, by omega⟩
  simp only [next, hx, hf, hm, takeRecords, Bool.false_eq_true, if_false, List.reverse_nil]

theorem next_of_records {b : Batcher} {r : Record} {rest : List Record}
    (hf : b.feed = .stream ((r :: rest).map .ok)) (hx : b.exhausted = false) (s : Nat) :
    b.next s = (.ok (some (Batch.make b.nextIndex ((r :: rest).take (max s 1)) b.mode)),
      { b with feed := .stream (((r :: rest).drop (max s 1)).map .ok), nextIndex := b.nextIndex + 1 }) := by
  obtain ⟨m, hm⟩ : ∃ m, max s 1 = m + 1 := ⟨max s 1 - 1, by omega⟩
  simp only [next, hx, hf, Bool.false_eq_true, if_false, takeRecords_ok, List.reverse_nil,
    List.nil_append, hm, List.take_succ_cons, List.drop_succ_cons]

/-- A request to a batcher whose pass has a fault after the records `rest`: the next records if
they are all there before the fault, else the fault, after which the batcher is dry. -/
theorem next_of_fault {b : Batcher} {rest : List Record} {e : SourceError} {more : List Item}
    (hf : b.feed = .stream (rest.map .ok ++ .error e :: more)) (hx : b.exhausted = false) (s : Nat) :
    b.next s =
      if max s 1 ≤ rest.length then
        (.ok (some (Batch.make b.nextIndex (rest.take (max s 1)) b.mode)),
          { b with feed := .stream ((rest.drop (max s 1)).map .ok ++ .error e :: more),
                   nextIndex := b.nextIndex + 1 })
      else (.error (.source e), { b with feed := .stream more, exhausted := true }) := by
  by_cases h : max s 1 ≤ rest.length
  · -- a full group is taken, and it holds at least one record
    obtain ⟨r, rs, hrs⟩ : ∃ r rs, rest.take (max s 1) = r :: rs := by
      cases hr : rest.take (max s 1) with
      | nil =>
        rcases List.take_eq_nil_iff.mp hr with h0 | h0
        · omega
        · rw [h0, List.length_nil] at h
          omega
      | cons r rs => exact ⟨r, rs, rfl⟩
    simp only [next, hx, hf, Bool.false_eq_true, if_false, takeRecords_fault, h, if_true,
      List.reverse_nil, List.nil_append, hrs]
  · simp only [next, hx, hf, Bool.false_eq_true, if_false, takeRecords_fault, h]

/-- Over a pass of records without a fault, request `k` hands out batch number `k` (counted from
the batcher's next number) of the records after those the earlier requests asked for, or none once
they asked for all. -/
theorem answers_records (ss : List Nat) : ∀ (b : Batcher) (rest : List Record),
    b.feed = .stream (rest.map .ok) → b.exhausted = false →
    ∀ k (hk : k < ss.length), (b.answers ss).1[k]? = some
      (if asked ss k < rest.length then
        .ok (some (Batch.make (b.nextIndex + k) ((rest.drop (asked ss k)).take (max ss[k] 1)) b.mode))
      else .ok none) := by
  induction ss with
  | nil => intro b rest _ _ k hk; simp at hk
  | cons s ss ih =>
    intro b rest hf hx k hk
    cases rest with
    | nil =>
      -- the pass is over: this request and every later one get none
      rw [answers_cons, next_of_stream_nil (by simpa using hf) hx]
      cases k with
      | zero => simp
      | succ k =>
        rw [List.getElem?_cons_succ]
        exact getElem?_answers_exhausted rfl (by simpa using hk)
    | cons r rs =>
      rw [answers_cons, next_of_records hf hx]
      cases k with
      | zero => simp
      | succ k =>
        -- the later requests are those of the batcher left with the rest of the pass
        let b' : Batcher :=
          { b with feed := .stream (((r :: rs).drop (max s 1)).map .ok), nextIndex := b.nextIndex + 1 }
        have hrest := ih b' ((r :: rs).drop (max s 1)) rfl hx k (by simpa using hk)
        rw [List.getElem?_cons_succ]
        refine hrest.trans ?_
        simp only [b', asked_cons_succ, List.length_drop, List.drop_drop, List.getElem_cons_succ]
        congr 2
        · apply propext; omega
        · congr 3; omega

/-- Over a pass with a fault after the records `rest`, request `k` hands out batch number `k` of
the records after those the earlier requests asked for while all it asks for is there before the
fault; the request that reaches the fault fails with it, and every later request gets none. -/
theorem answers_fault (e : SourceError) (more : List Item) (ss : List Nat) :
    ∀ (b : Batcher) (rest : List Record), b.feed = .stream (rest.map .ok ++ .error e :: more) →
    b.exhausted = false → ∀ k (hk : k < ss.length), (b.answers ss).1[k]? = some
      (if asked ss (k + 1) ≤ rest.length then
        .ok (some (Batch.make (b.nextIndex + k) ((rest.drop (asked ss k)).take (max ss[k] 1)) b.mode))
      else if asked ss k ≤ rest.length then .error (.source e) else .ok none) := by
  induction ss with
  | nil => intro b rest _ _ k hk; simp at hk
  | cons s ss ih =>
    intro b rest hf hx k hk
    rw [answers_cons, next_of_fault hf hx]
    by_cases h : max s 1 ≤ rest.length
    · rw [if_pos h]
      cases k with
      | zero => simp [asked_cons_succ, h]
      | succ k =>
        -- the later requests are those of the batcher left with the rest before the fault
        let b' : Batcher :=
          { b with feed := .stream ((rest.drop (max s 1)).map .ok ++ .error e :: more),
                   nextIndex := b.nextIndex + 1 }
        have hrest := ih b' (rest.drop (max s 1)) rfl hx k (by simpa using hk)
        rw [List.getElem?_cons_succ]
        refine hrest.trans ?_
        have hfits : asked ss (k + 1) ≤ (rest.drop (max s 1)).length ↔
            asked (s :: ss) (k + 1 + 1) ≤ rest.length := by
          rw [asked_cons_succ, List.length_drop]; omega
        have hreached : asked ss k ≤ (rest.drop (max s 1)).length ↔
            asked (s :: ss) (k + 1) ≤ rest.length := by
          rw [asked_cons_succ, List.length_drop]; omega
        have hidx : b'.nextIndex + k = b.nextIndex + (k + 1) := by simp only [b']; omega
        simp only [hfits, hreached, hidx, b', asked_cons_succ, List.drop_drop, List.getElem_cons_succ]
    · rw [if_neg h]
      cases k with
      | zero => simp [asked_cons_succ, h]
      | succ k =>
        -- the fault leaves the batcher dry
        rw [List.getElem?_cons_succ, getElem?_answers_exhausted rfl (by simpa using hk)]
        have hpast : ¬ asked (s :: ss) (k + 1) ≤ rest.length := by rw [asked_cons_succ]; omega
        have hpast' : ¬ asked (s :: ss) (k + 1 + 1) ≤ rest.length := by rw [asked_cons_succ]; omega
        simp [hpast, hpast']

/-! ## Kept batches replayed -/

theorem answers_replay (ss : List Nat) : ∀ (b : Batcher) (xs : List Batch),
    b.feed = .replay xs → b.exhausted = false →
    ∀ k < ss.length, (b.answers ss).1[k]? = some (.ok xs[k]?) := by
  induction ss with
  | nil => intro b xs _ _ k hk; simp at hk
  | cons s ss ih =>
    intro b xs hf hx k hk
    cases xs with
    | nil =>
      have hnext : b.next s = (.ok none, { b with exhausted := true }) := by simp [next, hx, hf]
      rw [answers_cons, hnext]
      cases k with
      | zero => simp
      | succ k =>
        rw [List.getElem?_cons_succ]
        exact getElem?_answers_exhausted rfl (by simpa using hk)
    | cons x xs =>
      have hnext : b.next s = (.ok (some x), { b with feed := .replay xs, nextIndex := b.nextIndex + 1 }) := by
        simp [next, hx, hf]
      rw [answers_cons, hnext]
      cases k with
      | zero => simp
      | succ k =>
        rw [List.getElem?_cons_succ, List.getElem?_cons_succ]
        exact ih { b with feed := .replay xs, nextIndex := b.nextIndex + 1 } xs rfl hx k (by simpa using hk)

/-! ## The batching law -/

theorem dispatched_answers {b : Batcher} (h : b.nextIndex = 0) (ss : List Nat) :
    (b.answers ss).2.dispatched = (handedOut (b.answers ss).1).length := by
  simp [dispatched, nextIndex_answers, h]

/-- How a batcher answers a run of requests, in the order its lock puts them. Request `k` gets
batch number `k` of the records after those the earlier requests took, as many as it asks for or
as are left, and none once none is left; the request that reaches a fault fails with it, and the
records it was gathering are never handed out. A replaying batcher hands its kept batches out in
order whatever the sizes asked for. A request answered without a batch is followed by none. -/
theorem batches_follow_requests (mode : WorkerMode) (retain : Bool) (ss : List Nat) :
    (∀ rs : List Record,
      let out := (ofItems (rs.map .ok) mode retain).answers ss
      (∀ k (hk : k < ss.length), out.1[k]? = some
        (if asked ss k < rs.length then
          .ok (some (Batch.make k ((rs.drop (asked ss k)).take (max ss[k] 1)) mode))
        else .ok none)) ∧
      out.2.dispatched = (handedOut out.1).length) ∧
    (∀ (rs : List Record) (e : SourceError) (more : List Item),
      let out := (ofItems (rs.map .ok ++ .error e :: more) mode retain).answers ss
      (∀ k (hk : k < ss.length), out.1[k]? = some
        (if asked ss (k + 1) ≤ rs.length then
          .ok (some (Batch.make k ((rs.drop (asked ss k)).take (max ss[k] 1)) mode))
        else if asked ss k ≤ rs.length then .error (.source e) else .ok none)) ∧
      out.2.dispatched = (handedOut out.1).length) ∧
    (∀ bs : List Batch,
      let out := (ofRetained bs mode).answers ss
      (∀ k < ss.length, out.1[k]? = some (.ok bs[k]?)) ∧
      out.2.dispatched = (handedOut out.1).length) ∧
    (∀ (b : Batcher) (k j : Nat) (a : Except ConvertError (Option Batch)), k < j → j < ss.length →
      (b.answers ss).1[k]? = some a → a.toOption.join = none →
        (b.answers ss).1[j]? = some (.ok none)) := by
  refine ⟨fun rs => ⟨fun k hk => ?records, dispatched_answers rfl ss⟩,
    fun rs e more => ⟨fun k hk => ?fault, dispatched_answers rfl ss⟩,
    fun bs => ⟨answers_replay ss _ bs rfl rfl, dispatched_answers rfl ss⟩, answers_stay_none ss⟩
  case records => simpa [ofItems] using answers_records ss (ofItems (rs.map .ok) mode retain) rs rfl rfl k hk
  case fault =>
    simpa [ofItems] using
      answers_fault e more ss (ofItems (rs.map .ok ++ .error e :: more) mode retain) rs rfl rfl k hk

/-- A pass whose second item is a fault: a request for five records reaches the fault and fails
with it, handing out nothing, and the next request gets none. -/
theorem fault_ends_the_pass :
    let r : Record := { recordType := "Entity" }
    let e : SourceError := .other "connection reset"
    let out := (ofItems ([r].map .ok ++ .error e :: [.ok r]) .shared false).answers [5, 5]
    0 < [5, 5].length ∧ out.1[0]? = some (.error (.source e)) ∧
      (0 < 1 ∧ 1 < [5, 5].length ∧ out.1[1]? = some (.ok none)) := by
  intro r e out
  have hfault := ((batches_follow_requests .shared false [5, 5]).2.1 [r] e [.ok r]).1
  have h0 : out.1[0]? = some (.error (.source e)) := by
    rw [hfault 0 (by decide)]
    simp [asked]
  exact ⟨by decide, h0, by decide, by decide,
    (batches_follow_requests .shared false [5, 5]).2.2.2 _ 0 1 _ (by decide) (by decide) h0 rfl⟩

end Batcher

end GraphIngest

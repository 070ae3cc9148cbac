import Mathlib.Data.List.Sort
import SelectiveMerge.Proofs.Payload

/-!
# The order of the directives

The directives of a payload stand in level order. The level order is defined here from the
document order alone, by a stable sort, and the list of directives is shown to be in it. A
queue that is fed with the children of each object it comes to yields the same list.

* `terminals` — the values that keys lead to, in document order
* `levelOrder` — the same, by the number of keys and then in document order
* `ofMembers_eq_map_levelOrder` — the directives are the values in level order
* `ofQueue_children` — the loop over a queue yields them in that order
-/

namespace SelectiveMerge

/-! ## Lists by rank -/

/-- A list that ascends by rank is known from what it holds of each rank, in order. -/
theorem eq_of_filter_rank_eq {α : Type} (rank : α → Nat) {xs ys : List α}
    (hxs : xs.Pairwise fun a b => rank a ≤ rank b) (hys : ys.Pairwise fun a b => rank a ≤ rank b)
    (h : ∀ d, xs.filter (fun a => rank a = d) = ys.filter (fun a => rank a = d)) : xs = ys := by
  have hmem (a : α) : a ∈ xs ↔ a ∈ ys := by
    have hfilter := congrArg (a ∈ ·) (h (rank a))
    simpa using hfilter
  induction xs generalizing ys with
  | nil =>
    cases ys with
    | nil => rfl
    | cons y ys => exact absurd ((hmem y).2 (List.mem_cons_self ..)) List.not_mem_nil
  | cons x xs ih =>
    cases ys with
    | nil => exact absurd ((hmem x).1 (List.mem_cons_self ..)) List.not_mem_nil
    | cons y ys =>
      obtain ⟨hx, hxs'⟩ := List.pairwise_cons.1 hxs
      obtain ⟨hy, hys'⟩ := List.pairwise_cons.1 hys
      -- both heads have the least rank
      have hle : rank x ≤ rank y := by
        rcases List.mem_cons.1 ((hmem y).2 (List.mem_cons_self ..)) with heq | hin
        · rw [heq]
        · exact hx y hin
      have hge : rank y ≤ rank x := by
        rcases List.mem_cons.1 ((hmem x).1 (List.mem_cons_self ..)) with heq | hin
        · rw [heq]
        · exact hy x hin
      have hrank : rank x = rank y := le_antisymm hle hge
      have hheads := h (rank y)
      rw [List.filter_cons_of_pos (by simpa using hrank),
        List.filter_cons_of_pos (by simp)] at hheads
      obtain ⟨hhead, -⟩ := List.cons_eq_cons.1 hheads
      have htails (d : Nat) :
          xs.filter (fun a => rank a = d) = ys.filter (fun a => rank a = d) := by
        have hd := h d
        rw [← hhead] at hd
        by_cases hrank : rank x = d
        · rw [List.filter_cons_of_pos (by simpa using hrank),
            List.filter_cons_of_pos (by simpa using hrank)] at hd
          exact (List.cons_eq_cons.1 hd).2
        · rwa [List.filter_cons_of_neg (by simpa using hrank),
            List.filter_cons_of_neg (by simpa using hrank)] at hd
      have hmem' (a : α) : a ∈ xs ↔ a ∈ ys := by
        have hfilter := congrArg (a ∈ ·) (htails (rank a))
        simpa using hfilter
      rw [hhead, ih hxs' hys' htails hmem']

/-- A list sorted by rank ascends by rank. -/
theorem pairwise_insertionSort_rank {α : Type} (rank : α → Nat) (xs : List α) :
    (xs.insertionSort fun a b => rank a ≤ rank b).Pairwise fun a b => rank a ≤ rank b := by
  have htotal : Std.Total fun a b : α => rank a ≤ rank b := ⟨fun a b => le_total (rank a) (rank b)⟩
  have htrans : IsTrans α fun a b => rank a ≤ rank b := ⟨fun _ _ _ => le_trans⟩
  exact List.pairwise_insertionSort _ xs

/-- The sort by rank is stable: what a list holds of each rank keeps its order. -/
theorem filter_insertionSort_rank {α : Type} (rank : α → Nat) (xs : List α) (d : Nat) :
    (xs.insertionSort fun a b => rank a ≤ rank b).filter (fun a => rank a = d) =
      xs.filter fun a => rank a = d := by
  have hsame : (xs.filter fun a => rank a = d).Pairwise fun a b => rank a ≤ rank b := by
    refine List.pairwise_iff_forall_sublist.2 fun {a b} hsub => ?_
    have ha := List.of_mem_filter (hsub.subset (List.mem_cons_self ..))
    have hb := List.of_mem_filter (hsub.subset (List.mem_cons_of_mem _ (List.mem_cons_self ..)))
    simp only [decide_eq_true_eq] at ha hb
    rw [ha, hb]
  have hsub := (List.sublist_insertionSort hsame
    List.filter_sublist).filter fun a => decide (rank a = d)
  have htwice : (xs.filter fun a => rank a = d).filter (fun a => rank a = d) =
      xs.filter fun a => rank a = d := by
    simp
  rw [htwice] at hsub
  have hperm := (List.perm_insertionSort (fun a b => rank a ≤ rank b) xs).filter
    fun a => decide (rank a = d)
  exact (hsub.eq_of_length hperm.length_eq.symm).symm

/-! ## The values of a payload -/

namespace Payload

variable {options : Options}

mutual

/-- The values that keys lead to, with the keys, in the order of the document. No key is the
removal marker. -/
def terminals (options : Options) : Json → List (List String × Json)
  | .object members => memberTerminals options members
  | .array items => [([], .array items)]
  | .null => [([], .null)]
  | .bool b => [([], .bool b)]
  | .number n => [([], .number n)]
  | .string s => [([], .string s)]

/-- The values that keys lead to from these members. -/
def memberTerminals (options : Options) : List (String × Json) → List (List String × Json)
  | [] => []
  | (key, value) :: members =>
      if options.isRemoveMarker key then memberTerminals options members
      else (terminals options value).map (fun t => (key :: t.1, t.2)) ++
        memberTerminals options members

end

/-- The values that keys lead to, by the number of keys, and those with as many keys in the
order of the document. -/
def levelOrder (options : Options) (payload : Json) : List (List String × Json) :=
  (terminals options payload).insertionSort fun a b => a.1.length ≤ b.1.length

theorem terminals_of_not_isObject {value : Json} (h : value.isObject = false) :
    terminals options value = [([], value)] := by
  cases value with
  | object members => cases h
  | _ => rfl

mutual

/-- The terminals are what keys lead to. -/
theorem mem_terminals_iff {path : List String} {leaf : Json} : (value : Json) →
    ((path, leaf) ∈ terminals options value ↔ Leads options value path leaf)
  | .object members => by
    rw [terminals, mem_memberTerminals_iff members]
    constructor
    · rintro ⟨key, value, rest, hmember, hmarker, hrest, rfl⟩
      exact .member hmember hmarker hrest
    · rintro (_ | ⟨hmember, hmarker, hrest⟩)
      · rename_i hvalue
        cases hvalue
      · exact ⟨_, _, _, hmember, hmarker, hrest, rfl⟩
  | .array _ | .null | .bool _ | .number _ | .string _ => by
    rw [terminals_of_not_isObject rfl, List.mem_singleton, Prod.mk.injEq]
    constructor
    · rintro ⟨rfl, rfl⟩
      exact .here rfl
    · rintro ⟨⟩
      exact ⟨rfl, rfl⟩

theorem mem_memberTerminals_iff {path : List String} {leaf : Json} :
    (members : List (String × Json)) →
    ((path, leaf) ∈ memberTerminals options members ↔
      ∃ key value rest, (key, value) ∈ members ∧ options.isRemoveMarker key = false ∧
        Leads options value rest leaf ∧ path = key :: rest)
  | [] => by simp [memberTerminals]
  | (key, value) :: members => by
    have htail : ((path, leaf) ∈ memberTerminals options members ↔ _) :=
      mem_memberTerminals_iff members
    have hhead (rest : List String) :
        (rest, leaf) ∈ terminals options value ↔ Leads options value rest leaf :=
      mem_terminals_iff value
    rw [memberTerminals]
    by_cases hmarker : options.isRemoveMarker key = true
    · rw [if_pos hmarker, htail]
      constructor
      · rintro ⟨key', value', rest, hmember, h⟩
        exact ⟨key', value', rest, List.mem_cons_of_mem _ hmember, h⟩
      · rintro ⟨key', value', rest, hmember, hmarker', h⟩
        rcases List.mem_cons.1 hmember with heq | hmember
        · obtain ⟨rfl, rfl⟩ := Prod.ext_iff.1 heq
          rw [hmarker] at hmarker'
          cases hmarker'
        · exact ⟨key', value', rest, hmember, hmarker', h⟩
    · have hmarker : options.isRemoveMarker key = false := by simpa using hmarker
      rw [if_neg (by simp [hmarker]), List.mem_append, htail]
      constructor
      · rintro (hin | ⟨key', value', rest, hmember, h⟩)
        · obtain ⟨⟨rest, _⟩, hinner, heq⟩ := List.mem_map.1 hin
          obtain ⟨rfl, rfl⟩ := Prod.ext_iff.1 heq
          exact ⟨key, value, rest, List.mem_cons_self .., hmarker, (hhead rest).1 hinner, rfl⟩
        · exact ⟨key', value', rest, List.mem_cons_of_mem _ hmember, h⟩
      · rintro ⟨key', value', rest, hmember, hmarker', hleads, rfl⟩
        rcases List.mem_cons.1 hmember with heq | hmember
        · obtain ⟨rfl, rfl⟩ := Prod.ext_iff.1 heq
          exact .inl (List.mem_map.2 ⟨(rest, leaf), (hhead rest).2 hleads, rfl⟩)
        · exact .inr ⟨key', value', rest, hmember, hmarker', hleads, rfl⟩

end

theorem mem_levelOrder_iff {payload leaf : Json} {path : List String} :
    (path, leaf) ∈ levelOrder options payload ↔ Leads options payload path leaf := by
  rw [levelOrder, (List.perm_insertionSort ..).mem_iff, mem_terminals_iff]

theorem pairwise_levelOrder (payload : Json) :
    (levelOrder options payload).Pairwise fun a b => a.1.length ≤ b.1.length :=
  pairwise_insertionSort_rank (fun t : List String × Json => t.1.length) _

/-- The values with so many keys stand in the order of the document. -/
theorem filter_levelOrder (payload : Json) (d : Nat) :
    (levelOrder options payload).filter (fun t => t.1.length = d) =
      (terminals options payload).filter fun t => t.1.length = d :=
  filter_insertionSort_rank (fun t : List String × Json => t.1.length) _ d

end Payload

/-! ## The directives in level order -/

namespace Directive

open Payload (terminals memberTerminals levelOrder)

variable {options : Options}

theorem getD_joinLevels {α : Type} (xs ys : List (List α)) (d : Nat) :
    (joinLevels xs ys).getD d [] = xs.getD d [] ++ ys.getD d [] := by
  induction xs generalizing ys d with
  | nil => simp [joinLevels]
  | cons x xs ih =>
    cases ys with
    | nil => simp [joinLevels]
    | cons y ys =>
      cases d with
      | zero => rfl
      | succ d => simpa [joinLevels] using ih ys d

theorem joinLevels_nil {α : Type} (xs : List (List α)) : joinLevels xs [] = xs := by
  cases xs <;> rfl

theorem joinLevels_assoc {α : Type} (xs ys zs : List (List α)) :
    joinLevels (joinLevels xs ys) zs = joinLevels xs (joinLevels ys zs) := by
  induction xs generalizing ys zs with
  | nil => rfl
  | cons x xs ih =>
    cases ys with
    | nil => rfl
    | cons y ys =>
      cases zs with
      | nil => rfl
      | cons z zs => simp only [joinLevels, List.append_assoc, ih]

mutual

/-- Each level holds the values with so many keys, in the order of the document. -/
theorem getD_levels (path : List String) (d : Nat) : (value : Json) →
    (levels options path value).getD d [] =
      ((terminals options value).filter fun t => t.1.length = d).map
        fun t => ofValue options (path ++ t.1) t.2
  | .object members => by
    rw [levels, terminals]
    cases d with
    | zero =>
      rw [List.filter_eq_nil_iff.2]
      · rfl
      · rintro ⟨keys, leaf⟩ hin
        obtain ⟨key, value, rest, -, -, -, rfl⟩ := (Payload.mem_memberTerminals_iff members).1 hin
        simp
    | succ d => exact getD_memberLevels path d members
  | .array _ | .null | .bool _ | .number _ | .string _ => by
    rw [Payload.terminals_of_not_isObject rfl]
    cases d with
    | zero => simp [levels, ofValue]
    | succ d => simp [levels]

theorem getD_memberLevels (path : List String) (d : Nat) : (members : List (String × Json)) →
    (memberLevels options path members).getD d [] =
      ((memberTerminals options members).filter fun t => t.1.length = d + 1).map
        fun t => ofValue options (path ++ t.1) t.2
  | [] => by simp [memberLevels, memberTerminals]
  | (key, value) :: members => by
    have htail := getD_memberLevels path d members
    have hhead := getD_levels (path ++ [key]) d value
    rw [memberLevels, memberTerminals]
    by_cases hmarker : options.isRemoveMarker key = true
    · rw [if_pos hmarker, if_pos hmarker, htail]
    · rw [if_neg hmarker, if_neg hmarker, getD_joinLevels, hhead, htail, List.filter_append,
        List.map_append, List.filter_map, List.map_map]
      congr 1
      simp [Function.comp_def]

end

/-- Levels whose members have the rank of their level: the members of a rank are a level. -/
theorem filter_flatten_of_rank {α : Type} (rank : α → Nat) (ls : List (List α)) (base : Nat)
    (h : ∀ d, ∀ a ∈ ls.getD d [], rank a = base + d) (d : Nat) :
    ls.flatten.filter (fun a => rank a = base + d) = ls.getD d [] := by
  induction ls generalizing base d with
  | nil => simp
  | cons l ls ih =>
    have htail : ∀ d, ∀ a ∈ ls.getD d [], rank a = base + 1 + d := by
      intro d a ha
      have := h (d + 1) a (by simpa using ha)
      omega
    have hlater : ∀ a ∈ ls.flatten, base + 1 ≤ rank a := by
      intro a ha
      obtain ⟨l', hl', ha⟩ := List.mem_flatten.1 ha
      obtain ⟨d', hd', rfl⟩ := List.getElem_of_mem hl'
      have := htail d' a (by simpa [List.getD_eq_getElem?_getD, hd'] using ha)
      omega
    rw [List.flatten_cons, List.filter_append]
    cases d with
    | zero =>
      have hnone : ls.flatten.filter (fun a => rank a = base + 0) = [] := by
        refine List.filter_eq_nil_iff.2 fun a ha => ?_
        have := hlater a ha
        simp only [decide_eq_true_eq]
        omega
      rw [hnone, List.append_nil]
      refine List.filter_eq_self.2 fun a ha => ?_
      simpa using h 0 a (by simpa using ha)
    | succ d =>
      have hnone : l.filter (fun a => rank a = base + (d + 1)) = [] := by
        refine List.filter_eq_nil_iff.2 fun a ha => ?_
        have := h 0 a (by simpa using ha)
        simp only [decide_eq_true_eq]
        omega
      have hrank : base + (d + 1) = base + 1 + d := by omega
      rw [hnone, List.nil_append, hrank, ih (base + 1) htail d]
      simp

theorem pairwise_flatten_of_rank {α : Type} (rank : α → Nat) (ls : List (List α)) (base : Nat)
    (h : ∀ d, ∀ a ∈ ls.getD d [], rank a = base + d) :
    ls.flatten.Pairwise fun a b => rank a ≤ rank b := by
  induction ls generalizing base with
  | nil => exact List.Pairwise.nil
  | cons l ls ih =>
    have hhead : ∀ a ∈ l, rank a = base := by
      intro a ha
      simpa using h 0 a (by simpa using ha)
    have htail : ∀ d, ∀ a ∈ ls.getD d [], rank a = base + 1 + d := by
      intro d a ha
      have := h (d + 1) a (by simpa using ha)
      omega
    rw [List.flatten_cons, List.pairwise_append]
    refine ⟨?_, ih (base + 1) htail, fun a ha b hb => ?_⟩
    · refine List.pairwise_iff_forall_sublist.2 fun {a b} hsub => ?_
      rw [hhead a (hsub.subset (List.mem_cons_self ..)),
        hhead b (hsub.subset (List.mem_cons_of_mem _ (List.mem_cons_self ..)))]
    · obtain ⟨l', hl', hb⟩ := List.mem_flatten.1 hb
      obtain ⟨d, hd, rfl⟩ := List.getElem_of_mem hl'
      have := htail d b (by simpa [List.getD_eq_getElem?_getD, hd] using hb)
      rw [hhead a ha]
      omega

/-- The directives of a payload are the values that keys lead to, in level order. -/
theorem ofMembers_eq_map_levelOrder (members : List (String × Json)) :
    ofMembers options members =
      (levelOrder options (.object members)).map fun t => ofValue options t.1 t.2 := by
  have hrank : ∀ d, ∀ a ∈ (levels options [] (.object members)).getD d [],
      a.path.length = 0 + d := by
    intro d a ha
    rw [getD_levels] at ha
    obtain ⟨t, ht, rfl⟩ := List.mem_map.1 ha
    have hlength := List.of_mem_filter ht
    simpa using hlength
  have hlevels : ofMembers options members = (levels options [] (.object members)).flatten := rfl
  rw [hlevels]
  refine eq_of_filter_rank_eq (fun d : Directive => d.path.length)
    (pairwise_flatten_of_rank _ _ 0 hrank) ?_ fun d => ?_
  · rw [List.pairwise_map]
    exact (Payload.pairwise_levelOrder _).imp fun hab => by simpa using hab
  · have hfilter := filter_flatten_of_rank (fun d : Directive => d.path.length) _ 0 hrank d
    rw [Nat.zero_add] at hfilter
    rw [hfilter, getD_levels, List.filter_map, ← Payload.filter_levelOrder]
    congr 2
    funext t
    simp

/-! ## The queue -/

/-- What a queue is fed with at an object: its members, each with the keys that lead to it,
without the removal markers. -/
def children (options : Options) (path : List String) (members : List (String × Json)) :
    List (List String × Json) :=
  (members.filter fun member => !options.isRemoveMarker member.1).map
    fun member => (path ++ [member.1], member.2)

/-- The size of the values in a queue. -/
noncomputable def queueSize : List (List String × Json) → Nat
  | [] => 0
  | (_, value) :: queue => sizeOf value + queueSize queue

theorem queueSize_append (queue later : List (List String × Json)) :
    queueSize (queue ++ later) = queueSize queue + queueSize later := by
  induction queue with
  | nil => rw [List.nil_append, queueSize, Nat.zero_add]
  | cons e queue ih => rw [List.cons_append, queueSize, queueSize, ih, Nat.add_assoc]

theorem queueSize_children_lt (path : List String) (members : List (String × Json)) :
    queueSize (children options path members) < sizeOf (Json.object members) := by
  have hle : queueSize (children options path members) ≤ sizeOf members := by
    induction members with
    | nil => simp [queueSize, children]
    | cons member members ih =>
      obtain ⟨key, value⟩ := member
      have hsize : queueSize (children options path ((key, value) :: members)) ≤
          sizeOf value + queueSize (children options path members) := by
        unfold children
        by_cases hmarker : options.isRemoveMarker key = true
        · simp [hmarker]
        · simp [hmarker, queueSize]
      simp only [List.cons.sizeOf_spec, Prod.mk.sizeOf_spec]
      omega
  simp only [Json.object.sizeOf_spec]
  omega

/-- The queue gets smaller when an object is replaced by its members. -/
theorem queueSize_enqueue_lt (path : List String) (members : List (String × Json))
    (queue : List (List String × Json)) :
    queueSize (queue ++ children options path members) <
      queueSize ((path, .object members) :: queue) := by
  have hlt : queueSize (children options path members) < sizeOf (Json.object members) :=
    queueSize_children_lt path members
  rw [queueSize_append, queueSize]
  omega

theorem queueSize_lt (path : List String) (value : Json) (queue : List (List String × Json)) :
    queueSize queue < queueSize ((path, value) :: queue) := by
  have hpos : 0 < sizeOf value := Nat.pos_of_ne_zero (by cases value <;> simp)
  rw [queueSize]
  omega

/-- The loop over a queue: an object is replaced by its members at the end of the queue,
every other value gives a directive. -/
def ofQueue (options : Options) : List (List String × Json) → List Directive
  | [] => []
  | (path, .object members) :: queue => ofQueue options (queue ++ children options path members)
  | (path, value) :: queue => ofValue options path value :: ofQueue options queue
termination_by queue => queueSize queue
decreasing_by
  · exact queueSize_enqueue_lt path members queue
  · exact queueSize_lt path value queue

/-- The levels of the values in a queue, side by side. -/
def queueLevels (options : Options) : List (List String × Json) → List (List Directive)
  | [] => []
  | (path, value) :: queue => joinLevels (levels options path value) (queueLevels options queue)

theorem queueLevels_append (queue later : List (List String × Json)) :
    queueLevels options (queue ++ later) =
      joinLevels (queueLevels options queue) (queueLevels options later) := by
  induction queue with
  | nil => rfl
  | cons e queue ih =>
    rw [List.cons_append, queueLevels, queueLevels, ih, joinLevels_assoc]

theorem queueLevels_children (path : List String) (members : List (String × Json)) :
    queueLevels options (children options path members) = memberLevels options path members := by
  induction members with
  | nil => rfl
  | cons member members ih =>
    rw [memberLevels]
    by_cases hmarker : options.isRemoveMarker member.1 = true
    · rw [if_pos hmarker, ← ih]
      simp [children, hmarker]
    · rw [if_neg hmarker, ← ih]
      simp [children, hmarker, queueLevels]

theorem levels_of_not_isObject {path : List String} {value : Json} (h : value.isObject = false) :
    levels options path value = [[ofValue options path value]] := by
  cases value with
  | object members => cases h
  | _ => rfl

/-- The head of the queue stands on the level that is being read, the values that were put at
its end on the one below. -/
private theorem ofQueue_append (queue : List (List String × Json)) :
    ∀ now later, queue = now ++ later →
      ofQueue options queue =
        (joinLevels ([] :: queueLevels options later) (queueLevels options now)).flatten := by
  -- it is enough to look at queues whose head is on the level that is being read
  have hturn (later : List (List String × Json)) :
      (joinLevels ([] :: queueLevels options later) (queueLevels options [])).flatten =
        (joinLevels ([] :: queueLevels options []) (queueLevels options later)).flatten := by
    cases hlater : queueLevels options later <;> simp [queueLevels, joinLevels, joinLevels_nil]
  fun_induction ofQueue options queue with
  | case1 =>
    intro now later heq
    obtain ⟨rfl, rfl⟩ := List.append_eq_nil_iff.1 heq.symm
    rfl
  | case2 path members queue ih =>
    have hstep (now later : List (List String × Json)) (heq : queue = now ++ later) :
        ofQueue options (queue ++ children options path members) =
          (joinLevels ([] :: queueLevels options later)
            (queueLevels options ((path, .object members) :: now))).flatten := by
      rw [ih now (later ++ children options path members) (by rw [heq, List.append_assoc]),
        queueLevels_append, queueLevels_children, queueLevels, levels]
      cases hnow : queueLevels options now <;>
        simp [joinLevels, joinLevels_assoc]
    intro now later heq
    cases now with
    | nil =>
      obtain rfl : (path, .object members) :: queue = later := heq
      rw [hturn, hstep queue [] (by simp)]
    | cons e now =>
      obtain ⟨rfl, hqueue⟩ := List.cons_eq_cons.1 heq
      exact hstep now later hqueue
  | case3 path value queue hvalue ih =>
    have hvalue : value.isObject = false := by
      cases value with
      | object members => exact absurd rfl (hvalue members)
      | _ => rfl
    have hstep (now later : List (List String × Json)) (heq : queue = now ++ later) :
        ofValue options path value :: ofQueue options queue =
          (joinLevels ([] :: queueLevels options later)
            (queueLevels options ((path, value) :: now))).flatten := by
      rw [ih now later heq, queueLevels, levels_of_not_isObject hvalue]
      cases hnow : queueLevels options now <;> simp [joinLevels, joinLevels_nil]
    intro now later heq
    cases now with
    | nil =>
      obtain rfl : (path, value) :: queue = later := heq
      rw [hturn, hstep queue [] (by simp)]
    | cons e now =>
      obtain ⟨rfl, hqueue⟩ := List.cons_eq_cons.1 heq
      exact hstep now later hqueue

/-- The loop over a queue that starts with the members of a payload yields its directives,
in their order. -/
theorem ofQueue_children (members : List (String × Json)) :
    ofQueue options (children options [] members) = ofMembers options members := by
  rw [ofQueue_append _ (children options [] members) [] (by simp), queueLevels_children, ofMembers]
  cases memberLevels options [] members <;> simp [queueLevels, joinLevels]

end Directive

end SelectiveMerge

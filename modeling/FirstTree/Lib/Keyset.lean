import Mathlib.Data.List.Sort

/-!
# Pages with a cursor

A list is read page by page. A page is the first rows of those a query finds, and when the query finds one row more, a cursor made
from the last row of the page; the next query finds the rows below that cursor. A cursor need not tell the key of its row exactly:
the rows between the two are then on no page. Rows that tie may come in another order each time a query runs.
-/

namespace Keyset

variable {α β γ κ : Type*}

/-! ## Pages -/

/-- A page of rows, and the cursor of the next one. -/
structure Page (α γ : Type*) where
  items : List α
  nextCursor : Option γ

/-- A page of what its rows show. -/
def Page.map (f : α → β) (p : Page α γ) : Page β γ := ⟨p.items.map f, p.nextCursor⟩

/-- The page of what a query for one row more than the limit finds. -/
def page (limit : Nat) (cursorOf : α → γ) (rows : List α) : Page α γ :=
  let hasMore := decide (limit < rows.length)
  let items := if hasMore then rows.take limit else rows
  ⟨items, if hasMore then items.getLast?.map cursorOf else none⟩

/-- A page has only rows that were found. -/
theorem items_subset (limit : Nat) (cursorOf : α → γ) (rows : List α) : (page limit cursorOf rows).items ⊆ rows := by
  unfold page
  dsimp only
  split
  · exact List.take_subset limit rows
  · exact List.Subset.refl rows

/-- What the pages have, when the cursors are followed from one on; the requests are numbered, and one may fail. -/
def follow {ε : Type*} (request : Nat → Option γ → Except ε (Page β γ)) : Nat → Nat → Option γ → Option (List β)
  | _, 0, _ => none
  | i, fuel + 1, cursor =>
    match request i cursor with
    | .error _ => none
    | .ok p =>
      match p.nextCursor with
      | none => some p.items
      | some next => (follow request (i + 1) fuel (some next)).map (p.items ++ ·)

/-- Following the cursors from the first page until there is none comes to an end, and shows every row exactly once, in order. -/
def Complete {ε : Type*} [LE κ] (request : Nat → Option γ → Except ε (Page β γ)) (key : α → κ) (seen : α → β) (rows : List α) :
    Prop :=
  ∃ (fuel : Nat) (out : List α), follow request 0 fuel none = some (out.map seen) ∧ out.Perm rows ∧ out.Pairwise fun a b =>
    key b ≤ key a

/-- The order of a query by descending keys, request by request: rows that tie come in any order. -/
structure OrderBy [LE κ] (key : α → κ) where
  sort : Nat → List α → List α
  perm : ∀ i l, (sort i l).Perm l
  sorted : ∀ i l, (sort i l).Pairwise fun a b => key b ≤ key a

/-! ## Cursors -/

variable [LinearOrder κ]

/-- What is below the cursor of a key: keys below that key, and with a key every lower one. -/
structure Cut (κ : Type*) [LinearOrder κ] where
  cut : κ → κ → Bool
  below : ∀ k k', cut k k' = true → k' < k
  down : ∀ k k' k'', cut k k' = true → k'' ≤ k' → cut k k'' = true

/-- The keys of rows, from the highest to the lowest. -/
def descending (keys : List κ) : List κ := keys.insertionSort (· ≥ ·)

/-- Wherever a page ends, the next key is below the cursor of the last one. -/
def CutsPages (C : Cut κ) (limit : Nat) (keys : List κ) : Prop :=
  ∀ n k k', keys[(n + 1) * limit - 1]? = some k → keys[(n + 1) * limit]? = some k' → C.cut k k' = true

/-- A stable sort is one such order. -/
def OrderBy.stable (key : α → κ) : OrderBy key where
  sort _ l := l.insertionSort fun a b => key b ≤ key a
  perm _ l := List.perm_insertionSort _ l
  sorted _ l := by
    have : Std.Total fun a b : α => key b ≤ key a := ⟨fun a b => le_total (key b) (key a)⟩
    have : IsTrans α fun a b => key b ≤ key a := ⟨fun _ _ _ h h' => le_trans h' h⟩
    exact List.pairwise_insertionSort _ l

/-! ## Following the cursors -/

section Follow

variable {ε : Type*} {C : Cut κ} {limit : Nat} {key : α → κ} {order : OrderBy key} {cursorOf : α → γ}
  {admits : Option γ → α → Bool} {seen : α → β} {rows : List α} {request : Nat → Option γ → Except ε (Page β γ)}

/-- A cursor one may have: none, or that of a row. -/
def IsCursor (cursorOf : α → γ) (rows : List α) (cursor : Option γ) : Prop := cursor = none ∨ ∃ b ∈ rows, cursor = some (cursorOf b)

/-- A list that answers with the page of the rows a cursor admits, in order. The first page admits all, and the cursor of a row what
its key cuts off. -/
structure Answers (C : Cut κ) (limit : Nat) (order : OrderBy key) (cursorOf : α → γ) (admits : Option γ → α → Bool) (seen : α → β)
    (rows : List α) (request : Nat → Option γ → Except ε (Page β γ)) : Prop where
  first : ∀ x ∈ rows, admits none x = true
  next : ∀ b ∈ rows, ∀ x ∈ rows, admits (some (cursorOf b)) x = C.cut (key b) (key x)
  ok : ∀ i cursor, IsCursor cursorOf rows cursor →
    request i cursor = .ok ((page limit cursorOf ((order.sort i (rows.filter (admits cursor))).take (limit + 1))).map seen)

/-- A page that is not the last one: the first rows, and a row after them. -/
theorem page_of_lt (cursorOf : α → γ) {l : List α} (hlimit : 1 ≤ limit) (h : limit < l.length) :
    ∃ b, (l.take limit).getLast? = some b ∧ page limit cursorOf (l.take (limit + 1)) = ⟨l.take limit, some (cursorOf b)⟩ := by
  have hne : l.take limit ≠ [] := by
    intro hnil
    have := congrArg List.length hnil
    simp only [List.length_take, List.length_nil] at this
    omega
  obtain ⟨b, hb⟩ := Option.isSome_iff_exists.mp (List.getLast?_isSome.mpr hne)
  refine ⟨b, hb, ?_⟩
  have hmore : limit < (l.take (limit + 1)).length := by
    rw [List.length_take]
    omega
  have htake : (l.take (limit + 1)).take limit = l.take limit := by rw [List.take_take, Nat.min_eq_left (Nat.le_succ limit)]
  simp only [page, hmore, decide_true, if_true, htake, hb, Option.map_some]

/-- The last page: all rows. -/
theorem page_of_le {l : List α} (h : l.length ≤ limit) : page limit cursorOf (l.take (limit + 1)) = ⟨l, none⟩ := by
  have hmore : ¬ limit < l.length := by omega
  have htake : l.take (limit + 1) = l := List.take_of_length_le (by omega)
  simp only [page, htake, hmore, decide_false, Bool.false_eq_true, if_false]

/-- A list that fits one page has no page end to cut. -/
theorem cutsPages_of_le {keys : List κ} (h : keys.length ≤ limit) : CutsPages C limit keys := by
  intro n k k' _ hk'
  have hlt := (List.getElem?_eq_some_iff.mp hk').1
  have : limit ≤ (n + 1) * limit := Nat.le_mul_of_pos_left limit n.succ_pos
  omega

/-- The pages of a list are cut when the first one is, and those of the rest are. -/
theorem cutsPages_iff {keys : List κ} {k k' : κ} (hlimit : 1 ≤ limit) (hk : keys[limit - 1]? = some k)
    (hk' : keys[limit]? = some k') : CutsPages C limit keys ↔ C.cut k k' = true ∧ CutsPages C limit (keys.drop limit) := by
  constructor
  · intro h
    refine ⟨h 0 k k' (by simpa using hk) (by simpa using hk'), fun n j j' hj hj' => ?_⟩
    have hpos : limit ≤ (n + 1) * limit := Nat.le_mul_of_pos_left limit n.succ_pos
    have hnext : (n + 1 + 1) * limit = limit + (n + 1) * limit := by rw [Nat.succ_mul, Nat.add_comm]
    rw [List.getElem?_drop] at hj hj'
    refine h (n + 1) j j' ?_ ?_
    · rw [hnext, Nat.add_sub_assoc (by omega)]
      exact hj
    · rw [hnext]
      exact hj'
  · rintro ⟨hfirst, hrest⟩ n j j' hj hj'
    cases n with
    | zero =>
      rw [Nat.zero_add, Nat.one_mul] at hj hj'
      rw [hk] at hj
      rw [hk'] at hj'
      obtain rfl := Option.some.inj hj
      obtain rfl := Option.some.inj hj'
      exact hfirst
    | succ n =>
      have hpos : limit ≤ (n + 1) * limit := Nat.le_mul_of_pos_left limit n.succ_pos
      have hnext : (n + 1 + 1) * limit = limit + (n + 1) * limit := by rw [Nat.succ_mul, Nat.add_comm]
      refine hrest n j j' ?_ ?_
      · rw [List.getElem?_drop, ← Nat.add_sub_assoc (by omega), ← hnext]
        exact hj
      · rw [List.getElem?_drop, ← hnext]
        exact hj'

/-- The last row of a page in order is at most every row of it. -/
theorem last_le {l : List α} {b : α} (h : l.Pairwise fun a b => key b ≤ key a) (hb : l.getLast? = some b) : ∀ a ∈ l,
    key b ≤ key a := by
  obtain ⟨init, rfl⟩ := List.getLast?_eq_some_iff.mp hb
  intro a ha
  rcases List.mem_append.mp ha with ha | ha
  · exact (List.pairwise_append.mp h).2.2 a ha b (List.mem_singleton_self b)
  · rw [List.mem_singleton.mp ha]

/-- The rows of a page are not below its cursor, and what is below it are the rows after the page that it cuts off. -/
theorem filter_cut {S : List α} {b : α} (h : S.Pairwise fun a b => key b ≤ key a) (hb : (S.take limit).getLast? = some b) :
    S.filter (fun x => C.cut (key b) (key x)) = (S.drop limit).filter fun x => C.cut (key b) (key x) := by
  have htake : (S.take limit).filter (fun x => C.cut (key b) (key x)) = [] := by
    refine List.filter_eq_nil_iff.mpr fun a ha hcut => ?_
    exact absurd (C.below _ _ hcut) (not_lt.mpr (last_le (h.sublist (List.take_sublist limit S)) hb a ha))
  calc S.filter (fun x => C.cut (key b) (key x))
      = (S.take limit ++ S.drop limit).filter (fun x => C.cut (key b) (key x)) := by rw [List.take_append_drop]
    _ = (S.drop limit).filter (fun x => C.cut (key b) (key x)) := by rw [List.filter_append, htake, List.nil_append]

/-- When a cursor has the row after its page below it, it has all rows after it below it. -/
theorem all_cut {l : List α} {k : κ} {d : α} (h : (d :: l).Pairwise fun a b => key b ≤ key a) (hd : C.cut k (key d) = true) :
    ∀ x ∈ d :: l, C.cut k (key x) = true := by
  intro x hx
  rcases List.mem_cons.mp hx with rfl | hx
  · exact hd
  · exact C.down _ _ _ hd ((List.pairwise_cons.mp h).1 x hx)

/-- The keys of a permuted list are the same from the highest to the lowest. -/
theorem descending_perm {l l' : List κ} (h : l.Perm l') : descending l = descending l' :=
  ((List.perm_insertionSort _ l).trans (h.trans (List.perm_insertionSort _ l').symm)).eq_of_pairwise
    (fun _ _ _ _ h h' => le_antisymm h' h) (List.pairwise_insertionSort (· ≥ ·) l) (List.pairwise_insertionSort (· ≥ ·) l')

/-- Keys in order are their own order. -/
theorem descending_of_pairwise {l : List κ} (h : l.Pairwise (· ≥ ·)) : descending l = l :=
  (List.perm_insertionSort _ l).eq_of_pairwise (fun _ _ _ _ h h' => le_antisymm h' h) (List.pairwise_insertionSort (· ≥ ·) l) h

/-- A page, and what is found below its cursor: in order, nothing twice, and everything when the cursor cuts off the rest and
everything is found below it. -/
theorem page_then_rest {A S out : List α} {b : α} (hlimit : 1 ≤ limit) (hperm : S.Perm A)
    (hsorted : S.Pairwise fun a b => key b ≤ key a)
    (hlen : limit < S.length) (hb : (S.take limit).getLast? = some b) (hout : out.Pairwise fun a b => key b ≤ key a)
    (hsub : out.Subperm (A.filter fun x => C.cut (key b) (key x)))
    (hiff : out.Perm (A.filter fun x => C.cut (key b) (key x)) ↔
      CutsPages C limit (descending ((A.filter fun x => C.cut (key b) (key x)).map key))) :
    (S.take limit ++ out).Pairwise (fun a b => key b ≤ key a) ∧ (S.take limit ++ out).Subperm A ∧
      ((S.take limit ++ out).Perm A ↔ CutsPages C limit (descending (A.map key))) := by
  have hbelow : (A.filter fun x => C.cut (key b) (key x)).Perm ((S.drop limit).filter fun x => C.cut (key b) (key x)) := by
    rw [← filter_cut hsorted hb]
    exact (hperm.symm.filter _)
  have hrest : out.Subperm (S.drop limit) := (hsub.trans hbelow.subperm).trans List.filter_sublist.subperm
  have hdrop : (S.drop limit).Pairwise fun a b => key b ≤ key a := hsorted.sublist (List.drop_sublist limit S)
  have hkeys : descending (A.map key) = S.map key := by
    rw [← descending_perm (hperm.map key)]
    exact descending_of_pairwise (List.pairwise_map.mpr hsorted)
  -- The row after the page, and the key of the row the page ends with.
  obtain ⟨d, hd⟩ : ∃ d, S[limit]? = some d := ⟨S[limit], List.getElem?_eq_getElem hlen⟩
  have hdrop' : S.drop limit = d :: S.drop (limit + 1) := by
    rw [List.drop_eq_getElem_cons hlen]
    rw [List.getElem?_eq_getElem hlen] at hd
    rw [Option.some.inj hd]
  have hbkey : (S.map key)[limit - 1]? = some (key b) := by
    rw [List.getLast?_eq_getElem?, List.length_take, Nat.min_eq_left hlen.le, List.getElem?_take_of_lt (by omega)] at hb
    rw [List.getElem?_map, hb, Option.map_some]
  have hdkey : (S.map key)[limit]? = some (key d) := by rw [List.getElem?_map, hd, Option.map_some]
  refine ⟨?_, ?_, ?_⟩
  · refine List.pairwise_append.mpr ⟨hsorted.sublist (List.take_sublist limit S), hout, fun a ha x hx => ?_⟩
    have hcut := (List.mem_filter.mp (hsub.subset hx)).2
    exact (C.below _ _ hcut).le.trans (last_le (hsorted.sublist (List.take_sublist limit S)) hb a ha)
  · refine List.Subperm.trans ?_ hperm.subperm
    calc (S.take limit ++ out).Subperm (S.take limit ++ S.drop limit) := (List.subperm_append_left _).mpr hrest
      _ = S := List.take_append_drop limit S
  · rw [hkeys, cutsPages_iff hlimit hbkey hdkey, ← List.map_drop]
    have hperm' : (S.take limit ++ out).Perm A ↔ out.Perm (S.drop limit) := by
      have hS : (S.take limit ++ out).Perm (S.take limit ++ S.drop limit) ↔ out.Perm (S.drop limit) := List.perm_append_left_iff _
      rw [List.take_append_drop] at hS
      rw [← hS]
      exact ⟨fun h => h.trans hperm.symm, fun h => h.trans hperm⟩
    -- When the cursor has the row after the page below it, the rest of the rows is what is below it.
    have hall : C.cut (key b) (key d) = true → (A.filter fun x => C.cut (key b) (key x)).Perm (S.drop limit) := by
      intro hcut
      have hkeep : (S.drop limit).filter (fun x => C.cut (key b) (key x)) = S.drop limit := by
        rw [List.filter_eq_self, hdrop']
        exact all_cut (hdrop' ▸ hdrop) hcut
      rwa [hkeep] at hbelow
    have hrestkeys : C.cut (key b) (key d) = true →
        descending ((A.filter fun x => C.cut (key b) (key x)).map key) = (S.drop limit).map key := by
      intro hcut
      rw [descending_perm ((hall hcut).map key)]
      exact descending_of_pairwise (List.pairwise_map.mpr hdrop)
    rw [hperm']
    constructor
    · intro hout'
      have hdmem : d ∈ out := hout'.mem_iff.mpr (hdrop' ▸ List.mem_cons_self)
      have hcut := (List.mem_filter.mp (hsub.subset hdmem)).2
      exact ⟨hcut, hrestkeys hcut ▸ hiff.mp (hout'.trans (hall hcut).symm)⟩
    · rintro ⟨hcut, hcuts⟩
      exact (hiff.mpr (hrestkeys hcut ▸ hcuts)).trans (hall hcut)

/-- When the rows below a cursor fit one page, the page has them all and is the last one. -/
theorem follow_of_le (h : Answers C limit order cursorOf admits seen rows request) {i fuel : Nat} {cursor : Option γ}
    (hcursor : IsCursor cursorOf rows cursor) (hlen : (rows.filter (admits cursor)).length ≤ limit) :
    follow request i (fuel + 1) cursor = some ((order.sort i (rows.filter (admits cursor))).map seen) := by
  have hlen' : (order.sort i (rows.filter (admits cursor))).length ≤ limit := by
    rw [(order.perm i _).length_eq]
    exact hlen
  simp only [follow, h.ok i cursor hcursor, page_of_le hlen', Page.map]

/-- When they do not, the page has the first of them, and the cursor of its last row is followed. -/
theorem follow_of_lt (h : Answers C limit order cursorOf admits seen rows request) (i fuel : Nat) {cursor : Option γ}
    (hcursor : IsCursor cursorOf rows cursor) (hlimit : 1 ≤ limit) (hlen : limit < (rows.filter (admits cursor)).length) :
    ∃ b, ((order.sort i (rows.filter (admits cursor))).take limit).getLast? = some b ∧
      follow request i (fuel + 1) cursor = (follow request (i + 1) fuel (some (cursorOf b))).map
        (((order.sort i (rows.filter (admits cursor))).take limit).map seen ++ ·) := by
  have hlen' : limit < (order.sort i (rows.filter (admits cursor))).length := by
    rw [(order.perm i _).length_eq]
    exact hlen
  obtain ⟨b, hb, hpage⟩ := page_of_lt cursorOf hlimit hlen'
  exact ⟨b, hb, by simp only [follow, h.ok i cursor hcursor, hpage, Page.map]⟩

/-- The last page has the rows it should, and no page end is left to cut. -/
theorem last_page (h : Answers C limit order cursorOf admits seen rows request) {i fuel : Nat} {cursor : Option γ}
    (hcursor : IsCursor cursorOf rows cursor) (hlen : (rows.filter (admits cursor)).length ≤ limit) :
    ∃ out : List α, follow request i (fuel + 1) cursor = some (out.map seen) ∧
      out.Pairwise (fun a b => key b ≤ key a) ∧ out.Subperm (rows.filter (admits cursor)) ∧
      (out.Perm (rows.filter (admits cursor)) ↔ CutsPages C limit (descending ((rows.filter (admits cursor)).map key))) := by
  have hperm := order.perm i (rows.filter (admits cursor))
  refine ⟨_, follow_of_le h hcursor hlen, order.sorted i _, hperm.subperm, fun _ => cutsPages_of_le ?_, fun _ => hperm⟩
  rw [descending, List.length_insertionSort, List.length_map]
  exact hlen

/-- The rows below the cursor of a row that is below a cursor. -/
theorem filter_next (h : Answers C limit order cursorOf admits seen rows request) {cursor : Option γ}
    (hcursor : IsCursor cursorOf rows cursor) {b : α} (hb : b ∈ rows.filter (admits cursor)) :
    rows.filter (admits (some (cursorOf b))) = (rows.filter (admits cursor)).filter fun x => C.cut (key b) (key x) := by
  obtain ⟨hbrows, hbcursor⟩ := List.mem_filter.mp hb
  rw [List.filter_filter]
  refine List.filter_congr fun x hx => ?_
  rw [h.next b hbrows x hx]
  cases hcut : C.cut (key b) (key x) with
  | false => rfl
  | true =>
    rw [Bool.true_and]
    rcases hcursor with rfl | ⟨a, ha, rfl⟩
    · exact (h.first x hx).symm
    · rw [h.next a ha b hbrows] at hbcursor
      rw [h.next a ha x hx, C.down _ _ _ hbcursor (C.below _ _ hcut).le]

/-- What the cursors find from one on: rows in order, none more often than it is there, and all of them exactly when every cursor has
the row after its page below it. -/
theorem follow_spec (h : Answers C limit order cursorOf admits seen rows request) (hlimit : 1 ≤ limit) (n : Nat) :
    ∀ i cursor, (rows.filter (admits cursor)).length ≤ n → IsCursor cursorOf rows cursor →
      ∃ out : List α, follow request i (n + 1) cursor = some (out.map seen) ∧
        out.Pairwise (fun a b => key b ≤ key a) ∧ out.Subperm (rows.filter (admits cursor)) ∧
        (out.Perm (rows.filter (admits cursor)) ↔ CutsPages C limit (descending ((rows.filter (admits cursor)).map key))) := by
  induction n with
  | zero =>
    intro i cursor hlen hcursor
    exact last_page h hcursor (hlen.trans (Nat.zero_le limit))
  | succ n ih =>
    intro i cursor hlen hcursor
    by_cases hle : (rows.filter (admits cursor)).length ≤ limit
    · exact last_page h hcursor hle
    · obtain ⟨b, hb, hfollow⟩ := follow_of_lt h i (n + 1) hcursor hlimit (not_le.mp hle)
      have hperm := order.perm i (rows.filter (admits cursor))
      have hsorted := order.sorted i (rows.filter (admits cursor))
      have hbmem : b ∈ rows.filter (admits cursor) := hperm.mem_iff.mp (List.mem_of_mem_take (List.mem_of_getLast? hb))
      have hnext := filter_next h hcursor hbmem
      have hshort : (rows.filter (admits (some (cursorOf b)))).length < (rows.filter (admits cursor)).length := by
        rw [hnext]
        refine List.length_filter_lt_length_iff_exists.mpr ⟨b, hbmem, fun hcut => ?_⟩
        exact absurd (C.below _ _ hcut) (lt_irrefl _)
      obtain ⟨out, hout, hpairwise, hsub, hiff⟩ := ih (i + 1) (some (cursorOf b)) (by omega)
        (.inr ⟨b, (List.mem_filter.mp hbmem).1, rfl⟩)
      rw [hnext] at hsub hiff
      refine ⟨(order.sort i (rows.filter (admits cursor))).take limit ++ out, ?_, ?_⟩
      · rw [hfollow, hout, Option.map_some, List.map_append]
      · exact page_then_rest hlimit hperm hsorted (hperm.length_eq ▸ not_le.mp hle) hb hpairwise hsub hiff

/-- The answer does not depend on how long the cursors may be followed. -/
theorem follow_eq {i fuel fuel' : Nat} {cursor : Option γ} {out out' : List β}
    (h : follow request i fuel cursor = some out) (h' : follow request i fuel' cursor = some out') : out = out' := by
  induction fuel generalizing i fuel' cursor out out' with
  | zero => cases h
  | succ fuel ih =>
    cases fuel' with
    | zero => cases h'
    | succ fuel' =>
      cases hrequest : request i cursor with
      | error e => simp only [follow, hrequest, reduceCtorEq] at h
      | ok p =>
        cases hnext : p.nextCursor with
        | none =>
          simp only [follow, hrequest, hnext] at h h'
          exact (Option.some.inj h).symm.trans (Option.some.inj h')
        | some next =>
          simp only [follow, hrequest, hnext] at h h'
          obtain ⟨rest, hrest, rfl⟩ := Option.map_eq_some_iff.mp h
          obtain ⟨rest', hrest', rfl⟩ := Option.map_eq_some_iff.mp h'
          rw [ih hrest hrest']

/-- Following the cursors shows every row exactly once, in order, exactly when every cursor has the row after its page below it. -/
theorem complete_iff (h : Answers C limit order cursorOf admits seen rows request) (hlimit : 1 ≤ limit) :
    Complete request key seen rows ↔ CutsPages C limit (descending (rows.map key)) := by
  have hall : rows.filter (admits none) = rows := List.filter_eq_self.mpr h.first
  obtain ⟨out, hout, hsorted, hsub, hiff⟩ := follow_spec h hlimit rows.length 0 none (by rw [hall]) (.inl rfl)
  rw [hall] at hsub hiff
  rw [← hiff]
  constructor
  · rintro ⟨fuel, out', hout', hperm, _⟩
    have hlen := congrArg List.length (follow_eq hout hout')
    rw [List.length_map, List.length_map, hperm.length_eq] at hlen
    exact hsub.perm_of_length_le hlen.ge
  · exact fun hperm => ⟨_, out, hout, hperm, hsorted⟩

end Follow

end Keyset

import FirstTree.Lib.SelfDelimiting
import FirstTree.Server.ScmDelivery
import Mathlib.Data.List.Dedup

/-!
# The targets of an SCM audience

The keys of lines and pairs determine them, the personnel targets of a pair merge to the same target in every order, and the
targets of an audience are read back: the lines with the context of their pair, the pairs that match no line, and the provider's
tasks.
-/

namespace FirstTree

namespace ScmDeliveryAux

open SelfDelimiting (split_at)

/-! ## The keys -/

/-- A character that is not plain is in no plain text. -/
theorem notMem_of_plain {s : String} (h : isPlain s = true) {c : Char} (hc : isPlainChar c = false) : c ∉ s.toList := by
  intro hmem
  have hplain := List.all_eq_true.mp h c hmem
  rw [hc] at hplain
  exact absurd hplain (by decide)

/-- Identifiers with the same text are the same. -/
theorem identifier_ext {a b : Identifier} (h : a.text.toList = b.text.toList) : a = b := by
  obtain ⟨s, _, _, _⟩ := a
  obtain ⟨t, _, _, _⟩ := b
  obtain rfl : s = t := String.toList_inj.mp h
  rfl

/-- No identifier has a colon. -/
theorem colon_notMem (a : Identifier) : ':' ∉ a.text.toList := notMem_of_plain a.plain (by decide)

/-- No identifier has the separator of the pairs. -/
theorem nul_notMem (a : Identifier) : '\x00' ∉ a.text.toList := notMem_of_plain a.plain (by decide)

/-- The key of a pair determines it. -/
theorem attentionPairKey_injective {h h' w w' : Identifier} (hk : attentionPairKey h w = attentionPairKey h' w') :
    h = h' ∧ w = w' := by
  have hk := congrArg String.toList hk
  simp only [attentionPairKey, String.toList_append, List.append_assoc] at hk
  obtain ⟨hh, hw⟩ := split_at (nul_notMem h) (nul_notMem h') hk
  exact ⟨identifier_ext hh, identifier_ext hw⟩

/-- The text of a provenance determines it. -/
theorem provenance_text_injective {p p' : ScmAttentionProvenance} (h : p.text = p'.text) : p = p' := by
  cases p <;> cases p' <;> first | rfl | exact absurd h (by decide)

/-- The key of an existing entry determines it. -/
theorem existingEntryKey_injective {e e' : ExistingScmAudienceEntry} (h : existingEntryKey e = existingEntryKey e') : e = e' := by
  have hk := congrArg String.toList h
  have hline : ':' ∉ "line".toList := by decide
  have hlegacy : ':' ∉ "legacy".toList := by decide
  cases e with
  | existing_line l =>
    cases e' with
    | existing_line l' =>
      obtain ⟨human, wake, chat, provenance⟩ := l
      obtain ⟨human', wake', chat', provenance'⟩ := l'
      simp only [existingEntryKey, String.intercalate_cons_cons, String.intercalate_singleton, String.toList_append,
        List.append_assoc] at hk
      obtain ⟨_, hk⟩ := split_at hline hline hk
      obtain ⟨hh, hk⟩ := split_at (colon_notMem human) (colon_notMem human') hk
      obtain ⟨hw, hk⟩ := split_at (colon_notMem wake) (colon_notMem wake') hk
      obtain ⟨hc, hp⟩ := split_at (colon_notMem chat) (colon_notMem chat') hk
      rw [identifier_ext hh, identifier_ext hw, identifier_ext hc, provenance_text_injective (String.toList_inj.mp hp)]
    | legacy_route r =>
      simp only [existingEntryKey, String.intercalate_cons_cons, String.intercalate_singleton, String.toList_append,
        List.append_assoc] at hk
      exact absurd (split_at hline hlegacy hk).1 (by decide)
  | legacy_route r =>
    cases e' with
    | existing_line l =>
      simp only [existingEntryKey, String.intercalate_cons_cons, String.intercalate_singleton, String.toList_append,
        List.append_assoc] at hk
      exact absurd (split_at hlegacy hline hk).1 (by decide)
    | legacy_route r' =>
      obtain ⟨chat, sender⟩ := r
      obtain ⟨chat', sender'⟩ := r'
      simp only [existingEntryKey, String.intercalate_cons_cons, String.intercalate_singleton, String.toList_append,
        List.append_assoc] at hk
      obtain ⟨_, hk⟩ := split_at hlegacy hlegacy hk
      obtain ⟨hc, hk⟩ := split_at (colon_notMem chat) (colon_notMem chat') hk
      obtain ⟨hs, _⟩ := split_at (colon_notMem sender) (colon_notMem sender') hk
      rw [identifier_ext hc, identifier_ext hs]

/-! ## The comparators -/

/-- The order of the personnel targets of a pair compares consistently. -/
theorem transCmp_personnel (C : PlainCollation) : Std.TransCmp (comparePersonnelTargets C) :=
  ComparatorSort.transCmp_then
    (ComparatorSort.transCmp_on (inferInstance : Std.TransCmp (compare : Nat → Nat → Ordering))
      fun t : ScmPersonnelTarget => involveReasonRank t.reason)
    (ComparatorSort.transCmp_on C.trans fun t : ScmPersonnelTarget => t.externalUsername.text)

variable {π : Type}

/-- The order of the delivery entries compares consistently. -/
theorem transCmp_entries (C : PlainCollation) : Std.TransCmp (compareScmDeliveryEntries (π := π) C) :=
  ComparatorSort.transCmp_then
    (ComparatorSort.transCmp_on C.trans fun e : ScmDeliveryEntry π => (e.humanAgentId.getD e.senderAgentId).text)
    (ComparatorSort.transCmp_on C.trans fun e : ScmDeliveryEntry π => (e.wakeAgentId.map (·.text)).getD "")

/-- A rank, and the order of the entries where it ties, compares consistently. -/
theorem transCmp_ranked (C : PlainCollation) (rank : ScmDeliveryEntry π → Nat) :
    Std.TransCmp fun a b => (compare (rank a) (rank b)).then (compareScmDeliveryEntries C a b) :=
  ComparatorSort.transCmp_then
    (ComparatorSort.transCmp_on (inferInstance : Std.TransCmp (compare : Nat → Nat → Ordering)) rank) (transCmp_entries C)

/-- Two reasons of the same rank are the same. -/
theorem involveReasonRank_injective {r r' : InvolveReason} (h : involveReasonRank r = involveReasonRank r') : r = r' := by
  cases r <;> cases r' <;> first | rfl | exact absurd h (by decide)

/-- Two personnel targets that tie show the same reason and the same username. -/
theorem eq_of_personnel_tie {C : PlainCollation} {a b : ScmPersonnelTarget} (h : comparePersonnelTargets C a b = .eq) :
    a.reason = b.reason ∧ a.externalUsername = b.externalUsername := by
  obtain ⟨hrank, hname⟩ := Ordering.then_eq_eq.mp h
  refine ⟨involveReasonRank_injective (Nat.compare_eq_eq.mp hrank), ?_⟩
  have hname := C.separates _ _ a.externalUsername.plain b.externalUsername.plain hname
  generalize a.externalUsername = u at hname
  generalize b.externalUsername = v at hname
  obtain ⟨s, _⟩ := u
  obtain ⟨t, _⟩ := v
  obtain rfl : s = t := hname
  rfl

/-! ## Composing the audience -/

/-- What the personnel targets of a pair merge to: a least of them, with a persistent line when one of them requires it. -/
structure Merged (C : PlainCollation) (l : List ScmPersonnelTarget) (m : ScmPersonnelTarget) : Prop where
  shown : ∃ p ∈ l, m = { p with requiresPersistentLine := m.requiresPersistentLine }
  least : ∀ p ∈ l, ComparatorSort.le (comparePersonnelTargets C) m p
  persistent : m.requiresPersistentLine = true ↔ ∃ p ∈ l, p.requiresPersistentLine = true

/-- The merge of the personnel targets of a pair. -/
theorem merged_gather {C : PlainCollation} {l : List ScmPersonnelTarget} {m : ScmPersonnelTarget}
    (h : OrderedMap.gather (mergePersonnel C) l = some m) : Merged C l m := by
  have hcmp := transCmp_personnel C
  refine OrderedMap.gather_induction (P := Merged C) (fun a => ?_) (fun l a b _ hb => ?_) h
  · exact ⟨⟨a, List.mem_singleton.mpr rfl, rfl⟩,
      fun p hp => List.mem_singleton.mp hp ▸ ComparatorSort.le_refl hcmp a, by simp [mergePersonnel]⟩
  · obtain ⟨⟨p, hp, hshown⟩, hleast, hpersistent⟩ := hb
    have hflag : (b.requiresPersistentLine || a.requiresPersistentLine) = true ↔
        ∃ q ∈ l ++ [a], q.requiresPersistentLine = true := by
      rw [Bool.or_eq_true, hpersistent]
      constructor
      · rintro (⟨q, hq, hflag⟩ | hflag)
        · exact ⟨q, List.mem_append_left _ hq, hflag⟩
        · exact ⟨a, List.mem_append_right _ (List.mem_singleton.mpr rfl), hflag⟩
      · rintro ⟨q, hq, hflag⟩
        rcases List.mem_append.mp hq with hq | hq
        · exact Or.inl ⟨q, hq, hflag⟩
        · exact Or.inr (List.mem_singleton.mp hq ▸ hflag)
    by_cases hlt : comparePersonnelTargets C a b = .lt
    · simp only [mergePersonnel, if_pos hlt]
      have hab : ComparatorSort.le (comparePersonnelTargets C) a b := by
        unfold ComparatorSort.le
        rw [hlt]
        rfl
      refine ⟨⟨a, List.mem_append_right _ (List.mem_singleton.mpr rfl), rfl⟩, fun q hq => ?_, hflag⟩
      rcases List.mem_append.mp hq with hq | hq
      · exact hcmp.isLE_trans hab (hleast q hq)
      · exact List.mem_singleton.mp hq ▸ ComparatorSort.le_refl hcmp a
    · simp only [mergePersonnel, if_neg hlt]
      refine ⟨⟨p, List.mem_append_left _ hp, ?_⟩, fun q hq => ?_, hflag⟩
      · rw [hshown]
      · rcases List.mem_append.mp hq with hq | hq
        · exact hleast q hq
        · obtain rfl := List.mem_singleton.mp hq
          exact ComparatorSort.le_of_not_lt hcmp hlt

/-- The personnel targets of one pair, in any order, merge to the same target. -/
theorem merged_unique {C : PlainCollation} {l l' : List ScmPersonnelTarget} {m m' : ScmPersonnelTarget} {k : String}
    (hmem : ∀ p, p ∈ l ↔ p ∈ l') (hpair : ∀ p ∈ l, p.pair = k) (h : Merged C l m) (h' : Merged C l' m') : m = m' := by
  obtain ⟨p, hp, hm⟩ := h.shown
  obtain ⟨p', hp', hm'⟩ := h'.shown
  -- the order reads the reason and the username, which the merge takes over
  have hle : ComparatorSort.le (comparePersonnelTargets C) m m' := by
    have hle := h.least p' ((hmem p').mpr hp')
    rw [hm']
    exact hle
  have hle' : ComparatorSort.le (comparePersonnelTargets C) m' m := by
    have hle := h'.least p ((hmem p).mp hp)
    rw [hm]
    exact hle
  obtain ⟨hreason, hname⟩ := eq_of_personnel_tie (ComparatorSort.tie_of_le (transCmp_personnel C) hle hle')
  have hpairs : p.pair = p'.pair := (hpair p hp).trans (hpair p' ((hmem p').mpr hp')).symm
  obtain ⟨hhuman, hwake⟩ := attentionPairKey_injective hpairs
  have hflag : m.requiresPersistentLine = m'.requiresPersistentLine := by
    rw [Bool.eq_iff_iff, h.persistent, h'.persistent]
    simp only [hmem]
  rw [hm, hm'] at hreason hname
  rw [hm, hm', hflag]
  simp only [ScmPersonnelTarget.mk.injEq] at hreason hname ⊢
  exact ⟨hreason, trivial, hhuman, hwake, hname⟩

/-- The pair of a merged target is its key. -/
theorem pair_of_personnelByPair {C : PlainCollation} {targets : List ScmPersonnelTarget} {k : String} {m : ScmPersonnelTarget}
    (h : (personnelByPair C targets).get? k = some m) : m.pair = k := by
  rw [personnelByPair, OrderedMap.get?_collect] at h
  obtain ⟨p, hp, hm⟩ := (merged_gather h).shown
  rw [hm]
  exact of_decide_eq_true (List.mem_filter.mp hp).2

/-- The order of the personnel targets does not matter to what their pairs merge to. -/
theorem personnelByPair_perm {C : PlainCollation} {targets targets' : List ScmPersonnelTarget} (h : targets'.Perm targets)
    (k : String) : (personnelByPair C targets').get? k = (personnelByPair C targets).get? k := by
  simp only [personnelByPair, OrderedMap.get?_collect]
  have hperm := h.filter fun t => t.pair = k
  cases hm' : OrderedMap.gather (mergePersonnel C) (targets'.filter fun t => t.pair = k) with
  | none =>
    rw [OrderedMap.gather_eq_none.mp hm'] at hperm
    exact (OrderedMap.gather_eq_none.mpr hperm.symm.eq_nil).symm
  | some m' =>
    cases hm : OrderedMap.gather (mergePersonnel C) (targets.filter fun t => t.pair = k) with
    | none =>
      rw [OrderedMap.gather_eq_none.mp hm] at hperm
      rw [hperm.eq_nil] at hm'
      exact absurd hm' (by simp)
    | some m =>
      exact congrArg some (merged_unique (fun p => hperm.mem_iff) (fun p hp => of_decide_eq_true (List.mem_filter.mp hp).2)
        (merged_gather hm') (merged_gather hm))

/-- The target of an existing entry before the personnel targets are attached. -/
def bareTarget (π : Type) (entry : ExistingScmAudienceEntry) : ScmAudienceTarget π :=
  { entry := .existing entry, directedContext := none }

/-- The loop over the existing entries keeps one target of each. -/
theorem mem_dedupExisting (entries : List ExistingScmAudienceEntry) :
    (∀ k, k ∈ (dedupExisting π entries).2 ↔ ∃ e ∈ entries, existingEntryKey e = k) ∧
      ∀ t, t ∈ (dedupExisting π entries).1 ↔ ∃ e ∈ entries, t = bareTarget π e := by
  induction entries using List.reverseRecOn with
  | nil => simp [dedupExisting]
  | append_singleton entries e ih =>
    obtain ⟨hkeys, htargets⟩ := ih
    have hstep : dedupExisting π (entries ++ [e]) =
        if (dedupExisting π entries).2.contains (existingEntryKey e) then dedupExisting π entries
        else ((dedupExisting π entries).1 ++ [bareTarget π e], (dedupExisting π entries).2 ++ [existingEntryKey e]) := by
      simp only [dedupExisting, List.foldl_append, List.foldl_cons, List.foldl_nil]
      rfl
    by_cases hseen : existingEntryKey e ∈ (dedupExisting π entries).2
    · obtain ⟨e', he', hk⟩ := (hkeys _).mp hseen
      obtain rfl := existingEntryKey_injective hk
      rw [hstep, if_pos (List.contains_iff_mem.mpr hseen)]
      have hsame : ∀ P : ExistingScmAudienceEntry → Prop, (∃ e ∈ entries ++ [e'], P e) ↔ ∃ e ∈ entries, P e := by
        intro P
        constructor
        · rintro ⟨x, hx, hP⟩
          rcases List.mem_append.mp hx with hx | hx
          · exact ⟨x, hx, hP⟩
          · exact ⟨e', he', List.mem_singleton.mp hx ▸ hP⟩
        · rintro ⟨x, hx, hP⟩
          exact ⟨x, List.mem_append_left _ hx, hP⟩
      exact ⟨fun k => (hkeys k).trans (hsame _).symm, fun t => (htargets t).trans (hsame _).symm⟩
    · rw [hstep, if_neg (by simpa using hseen)]
      constructor
      · intro k
        rw [List.mem_append, hkeys, List.mem_singleton]
        simp [or_and_right, exists_or, eq_comm]
      · intro t
        rw [List.mem_append, htargets, List.mem_singleton]
        simp [or_and_right, exists_or]

/-- A target that a list of pairs is attached to. -/
def linked (pairs : List (String × ScmPersonnelTarget)) (target : ScmAudienceTarget π) : ScmAudienceTarget π :=
  pairs.foldl (fun t e => t.attach e) target

/-- The last pair is attached last. -/
theorem linked_concat (pairs : List (String × ScmPersonnelTarget)) (e : String × ScmPersonnelTarget) (t : ScmAudienceTarget π) :
    linked (pairs ++ [e]) t = (linked pairs t).attach e := by
  simp only [linked, List.foldl_append, List.foldl_cons, List.foldl_nil]

/-- Attaching a pair changes no entry. -/
@[simp] theorem entry_attach (e : String × ScmPersonnelTarget) (t : ScmAudienceTarget π) : (t.attach e).entry = t.entry := by
  unfold ScmAudienceTarget.attach
  split <;> rfl

/-- Attaching pairs changes no entry. -/
@[simp] theorem entry_linked (pairs : List (String × ScmPersonnelTarget)) (t : ScmAudienceTarget π) :
    (linked pairs t).entry = t.entry := by
  induction pairs using List.reverseRecOn with
  | nil => rfl
  | append_singleton pairs e ih => rw [linked_concat, entry_attach, ih]

/-- Attaching pairs changes no pair. -/
@[simp] theorem linePair_linked (pairs : List (String × ScmPersonnelTarget)) (t : ScmAudienceTarget π) :
    (linked pairs t).linePair = t.linePair := by
  unfold ScmAudienceTarget.linePair
  rw [entry_linked]

/-- A target of another pair stays as it is. -/
theorem attach_of_ne {e : String × ScmPersonnelTarget} {t : ScmAudienceTarget π} (h : t.linePair ≠ some e.1) : t.attach e = t :=
  if_neg h

/-- A target whose pair is not listed stays as it is. -/
theorem linked_of_notMem {pairs : List (String × ScmPersonnelTarget)} {t : ScmAudienceTarget π}
    (h : ∀ e ∈ pairs, t.linePair ≠ some e.1) : linked pairs t = t := by
  induction pairs using List.reverseRecOn with
  | nil => rfl
  | append_singleton pairs e ih =>
    have hrest := ih fun e he => h e (List.mem_append_left _ he)
    rw [linked_concat, hrest, attach_of_ne (h e (List.mem_append_right _ (List.mem_singleton.mpr rfl)))]

/-- A target whose pair is listed takes the context listed for it. -/
theorem linked_of_mem {pairs : List (String × ScmPersonnelTarget)} {t : ScmAudienceTarget π} {k : String} {p : ScmPersonnelTarget}
    (hone : ∀ p', (k, p') ∈ pairs → p' = p) (hmem : (k, p) ∈ pairs) (ht : t.linePair = some k) :
    linked pairs t = { t with directedContext := some p.context } := by
  induction pairs using List.reverseRecOn with
  | nil => exact absurd hmem (by simp)
  | append_singleton pairs e ih =>
    obtain ⟨k', p'⟩ := e
    have hpair : (linked pairs t).linePair = some k := (linePair_linked pairs t).trans ht
    by_cases hk : k = k'
    · subst hk
      obtain rfl := hone p' (List.mem_append_right _ (List.mem_singleton.mpr rfl))
      rw [linked_concat, ScmAudienceTarget.attach, if_pos hpair]
      simp only [entry_linked]
    · rw [linked_concat, attach_of_ne fun h => hk (Option.some.inj (hpair.symm.trans h))]
      refine ih (fun p' hp' => hone p' (List.mem_append_left _ hp')) ?_
      rcases List.mem_append.mp hmem with hmem | hmem
      · exact hmem
      · exact absurd (congrArg Prod.fst (List.mem_singleton.mp hmem)) hk

/-- Whether a list of targets has a line of a pair. -/
def hasLine (base : List (ScmAudienceTarget π)) (k : String) : Bool := base.any fun t => t.linePair = some k

/-- The target of a pair that matches no line. -/
def personnelTarget (π : Type) (e : String × ScmPersonnelTarget) : ScmAudienceTarget π :=
  { entry := .personnel_target e.2, directedContext := none }

/-- It is no line. -/
theorem linePair_personnelTarget (e : String × ScmPersonnelTarget) (k : String) : (personnelTarget π e).linePair ≠ some k :=
  fun h => nomatch h

/-- Targets without lines are left alone. -/
theorem map_attach_personnel (e : String × ScmPersonnelTarget) (pairs : List (String × ScmPersonnelTarget)) :
    (pairs.map (personnelTarget π)).map (ScmAudienceTarget.attach e) = pairs.map (personnelTarget π) := by
  rw [List.map_map]
  exact List.map_congr_left fun p _ => attach_of_ne (linePair_personnelTarget p e.1)

/-- The loop over the pairs: every line with the context of its pair, then the pairs that match no line. -/
theorem foldl_attachPersonnel (base : List (ScmAudienceTarget π)) (pairs : List (String × ScmPersonnelTarget)) :
    pairs.foldl attachPersonnel base =
      base.map (linked pairs) ++ (pairs.filter fun e => ! hasLine base e.1).map (personnelTarget π) := by
  induction pairs using List.reverseRecOn with
  | nil => exact (List.map_id base).symm.trans (List.append_nil _).symm
  | append_singleton pairs e ih =>
    rw [List.foldl_append, List.foldl_cons, List.foldl_nil, ih]
    have hany : ((base.map (linked pairs) ++ (pairs.filter fun e => ! hasLine base e.1).map (personnelTarget π)).any
        fun t => t.linePair = some e.1) = hasLine base e.1 := by
      have hfalse : (((pairs.filter fun e => ! hasLine base e.1).map (personnelTarget π)).any
          fun t => t.linePair = some e.1) = false := by
        rw [List.any_eq_false]
        intro t ht
        obtain ⟨p, _, rfl⟩ := List.mem_map.mp ht
        exact fun h => linePair_personnelTarget p e.1 (of_decide_eq_true h)
      rw [List.any_append, hfalse, Bool.or_false, List.any_map, hasLine]
      simp only [Function.comp_def, linePair_linked]
    rw [attachPersonnel, hany, List.filter_append, List.map_append]
    cases hm : hasLine base e.1 with
    | true =>
      have hlast : ([e].filter fun e => ! hasLine base e.1) = [] := by simp [hm]
      rw [if_pos rfl, List.map_append, map_attach_personnel, List.map_map, hlast, List.map_nil, List.append_nil]
      congr 1
      exact List.map_congr_left fun t _ => (linked_concat pairs e t).symm
    | false =>
      have hlast : ([e].filter fun e => ! hasLine base e.1) = [e] := by simp [hm]
      rw [if_neg (by decide), hlast, List.map_append, List.append_assoc]
      refine congrArg (· ++ _) (List.map_congr_left fun t ht => ?_)
      have hne : (linked pairs t).linePair ≠ some e.1 := by
        rw [linePair_linked]
        exact fun h => Bool.false_ne_true (hm.symm.trans (List.any_eq_true.mpr ⟨t, ht, decide_eq_true h⟩))
      rw [linked_concat, attach_of_ne hne]

/-- The context of a pair. -/
def pairContext (C : PlainCollation) (personnelTargets : List ScmPersonnelTarget) (t : ScmAudienceTarget π) :
    Option ScmDirectedContext :=
  (t.linePair.bind fun k => (personnelByPair C personnelTargets).get? k).map (·.context)

/-- The targets of an audience. -/
theorem mem_composeScmAudience {C : PlainCollation} {existingEntries : List ExistingScmAudienceEntry}
    {personnelTargets : List ScmPersonnelTarget} {providerTaskTargets : List (ScmProviderTaskTarget π)} {t : ScmAudienceTarget π} :
    t ∈ composeScmAudience C existingEntries personnelTargets providerTaskTargets ↔
      (∃ e ∈ existingEntries, t = { bareTarget π e with directedContext := pairContext C personnelTargets (bareTarget π e) }) ∨
      (∃ k p, (personnelByPair C personnelTargets).get? k = some p ∧
        (∀ e ∈ existingEntries, (bareTarget π e).linePair ≠ some k) ∧ t = personnelTarget π (k, p)) ∨
      ∃ p ∈ providerTaskTargets, t = { entry := .provider_task_target p, directedContext := none } := by
  obtain ⟨_, hbase⟩ := mem_dedupExisting (π := π) existingEntries
  have hpairs : ∀ k p, (k, p) ∈ ComparatorSort.sortBy (fun a b => C.localeCompare a.1 b.1)
      (personnelByPair C personnelTargets).entries ↔ (personnelByPair C personnelTargets).get? k = some p := fun k p => by
    rw [ComparatorSort.mem_sortBy, OrderedMap.mem_entries]
  have hlinked : ∀ e ∈ existingEntries, linked (ComparatorSort.sortBy (fun a b => C.localeCompare a.1 b.1)
      (personnelByPair C personnelTargets).entries) (bareTarget π e) =
        { bareTarget π e with directedContext := pairContext C personnelTargets (bareTarget π e) } := fun e _ => by
    cases hline : (bareTarget π e).linePair with
    | none =>
      have hctx : pairContext C personnelTargets (bareTarget π e) = none := by
        rw [pairContext, hline, Option.bind_none, Option.map_none]
      rw [hctx, linked_of_notMem fun p _ h => nomatch hline.symm.trans h]
      rfl
    | some k =>
      cases hget : (personnelByPair C personnelTargets).get? k with
      | none =>
        have hctx : pairContext C personnelTargets (bareTarget π e) = none := by
          rw [pairContext, hline, Option.bind_some, hget, Option.map_none]
        rw [hctx, linked_of_notMem]
        · rfl
        · intro p hp h
          obtain rfl := Option.some.inj (hline.symm.trans h)
          exact nomatch hget.symm.trans ((hpairs p.1 p.2).mp hp)
      | some p =>
        have hctx : pairContext C personnelTargets (bareTarget π e) = some p.context := by
          rw [pairContext, hline, Option.bind_some, hget, Option.map_some]
        rw [hctx]
        exact linked_of_mem (fun p' hp' => Option.some.inj (((hpairs k p').mp hp').symm.trans hget)) ((hpairs k p).mpr hget) hline
  have hnoLine : ∀ k, hasLine (dedupExisting π existingEntries).1 k = false ↔
      ∀ e ∈ existingEntries, (bareTarget π e).linePair ≠ some k := fun k => by
    rw [hasLine, List.any_eq_false]
    constructor
    · intro h e he hline
      exact h _ ((hbase _).mpr ⟨e, he, rfl⟩) (decide_eq_true hline)
    · intro h t ht hline
      obtain ⟨e, he, rfl⟩ := (hbase t).mp ht
      exact h e he (of_decide_eq_true hline)
  simp only [composeScmAudience, foldl_attachPersonnel, List.mem_append, List.mem_map, or_assoc]
  refine or_congr ?_ (or_congr ?_ ?_)
  · constructor
    · rintro ⟨b, hb, rfl⟩
      obtain ⟨e, he, rfl⟩ := (hbase b).mp hb
      exact ⟨e, he, hlinked e he⟩
    · rintro ⟨e, he, rfl⟩
      exact ⟨_, (hbase _).mpr ⟨e, he, rfl⟩, hlinked e he⟩
  · constructor
    · rintro ⟨⟨k, p⟩, hmem, rfl⟩
      obtain ⟨hmem, hline⟩ := List.mem_filter.mp hmem
      exact ⟨k, p, (hpairs k p).mp hmem, (hnoLine k).mp (by simpa using hline), rfl⟩
    · rintro ⟨k, p, hget, hline, rfl⟩
      exact ⟨(k, p), List.mem_filter.mpr ⟨(hpairs k p).mpr hget, by simpa using (hnoLine k).mpr hline⟩, rfl⟩
  · constructor
    · rintro ⟨p, hp, rfl⟩
      exact ⟨p, hp, rfl⟩
    · rintro ⟨p, hp, rfl⟩
      exact ⟨p, hp, rfl⟩

/-- Another order of the existing entries or the personnel targets composes the same targets. -/
theorem mem_composeScmAudience_perm {C : PlainCollation} {existingEntries existingEntries' : List ExistingScmAudienceEntry}
    {personnelTargets personnelTargets' : List ScmPersonnelTarget} (he : existingEntries'.Perm existingEntries)
    (hp : personnelTargets'.Perm personnelTargets) (providerTaskTargets : List (ScmProviderTaskTarget π)) (t : ScmAudienceTarget π) :
    t ∈ composeScmAudience C existingEntries' personnelTargets' providerTaskTargets ↔
      t ∈ composeScmAudience C existingEntries personnelTargets providerTaskTargets := by
  simp only [mem_composeScmAudience, pairContext, personnelByPair_perm hp, he.mem_iff]

/-- The sender, the human and the wake agent of a target. -/
def targetRoute (t : ScmAudienceTarget π) : Identifier × Option Identifier × Option Identifier :=
  (scmTargetSenderAgentId t, scmTargetHumanAgentId t, scmTargetWakeAgentId t)

/-- A route has a sender alone, or a human who is the sender and a wake agent. -/
def Shaped (route : Identifier × Option Identifier × Option Identifier) : Prop :=
  (∃ s, route = (s, none, none)) ∨ ∃ h w, route = (h, some h, some w)

/-- The route of a target is one of the two. -/
theorem shaped_targetRoute (t : ScmAudienceTarget π) : Shaped (targetRoute t) := by
  obtain ⟨entry, context⟩ := t
  cases entry with
  | existing e =>
    cases e with
    | existing_line line => exact Or.inr ⟨line.humanAgentId, line.wakeAgentId, rfl⟩
    | legacy_route route => exact Or.inl ⟨route.senderAgentId, rfl⟩
  | personnel_target p => exact Or.inr ⟨p.humanAgentId, p.wakeAgentId, rfl⟩
  | provider_task_target p => exact Or.inr ⟨p.humanAgentId, p.wakeAgentId, rfl⟩

/-- Targets of one route carry the same reason and login, where they carry any. -/
def Coherent (targets : List (ScmAudienceTarget π)) : Prop :=
  ∀ t ∈ targets, ∀ t' ∈ targets, targetRoute t = targetRoute t' → t.involveReason.isSome = true → t'.involveReason.isSome = true →
    t.involveReason = t'.involveReason ∧ t.involveLogin = t'.involveLogin

/-- A target with a reason has that of its pair, and its login. -/
theorem involved_of_mem {C : PlainCollation} {existingEntries : List ExistingScmAudienceEntry}
    {personnelTargets : List ScmPersonnelTarget} {providerTaskTargets : List (ScmProviderTaskTarget π)} {t : ScmAudienceTarget π}
    (ht : t ∈ composeScmAudience C existingEntries personnelTargets providerTaskTargets) (hsome : t.involveReason.isSome = true) :
    ∃ h w p, targetRoute t = (h, some h, some w) ∧ (personnelByPair C personnelTargets).get? (attentionPairKey h w) = some p ∧
      t.involveReason = some p.reason ∧ t.involveLogin = some p.externalUsername := by
  rcases mem_composeScmAudience.mp ht with ⟨e, _, rfl⟩ | ⟨k, p, hget, _, rfl⟩ | ⟨p, _, rfl⟩
  · cases e with
    | existing_line line =>
      have hctx : pairContext C personnelTargets (bareTarget π (.existing_line line)) =
          ((personnelByPair C personnelTargets).get? (attentionPairKey line.humanAgentId line.wakeAgentId)).map (·.context) := rfl
      rw [hctx] at hsome ⊢
      cases hget : (personnelByPair C personnelTargets).get? (attentionPairKey line.humanAgentId line.wakeAgentId) with
      | none =>
        rw [hget] at hsome
        exact absurd hsome (by simp [ScmAudienceTarget.involveReason, bareTarget])
      | some p => exact ⟨line.humanAgentId, line.wakeAgentId, p, rfl, hget, rfl, rfl⟩
    | legacy_route route => exact absurd hsome (by simp [ScmAudienceTarget.involveReason, bareTarget, pairContext,
        ScmAudienceTarget.linePair])
  · have hpair : attentionPairKey p.humanAgentId p.wakeAgentId = k := pair_of_personnelByPair hget
    exact ⟨p.humanAgentId, p.wakeAgentId, p, rfl, hpair ▸ hget, rfl, rfl⟩
  · exact absurd hsome (by simp [ScmAudienceTarget.involveReason])

/-- The targets of an audience are coherent: a pair has one context. -/
theorem coherent_composeScmAudience (C : PlainCollation) (existingEntries : List ExistingScmAudienceEntry)
    (personnelTargets : List ScmPersonnelTarget) (providerTaskTargets : List (ScmProviderTaskTarget π)) :
    Coherent (composeScmAudience C existingEntries personnelTargets providerTaskTargets) := by
  intro t ht t' ht' hroute hsome hsome'
  obtain ⟨h, w, p, hr, hget, hreason, hlogin⟩ := involved_of_mem ht hsome
  obtain ⟨h', w', p', hr', hget', hreason', hlogin'⟩ := involved_of_mem ht' hsome'
  rw [hr, hr'] at hroute
  simp only [Prod.mk.injEq, Option.some.injEq] at hroute
  obtain ⟨rfl, _, rfl⟩ := hroute
  obtain rfl := Option.some.inj (hget.symm.trans hget')
  exact ⟨hreason.trans hreason'.symm, hlogin.trans hlogin'.symm⟩

end ScmDeliveryAux

end FirstTree

import Mathlib.Data.Nat.Digits.Defs
import FirstTree.Lemmas.ListCursor
import FirstTree.Server.MeChats

/-!
# Completeness of the conversation list

When following the cursors of `listMeChats` shows every chat that matches the query exactly once. The cursor cuts the activity of its
chat to milliseconds, while the rows are ordered and compared by microseconds.
-/

namespace FirstTree

open MeChats ListCursor ListCursorAux

namespace MeChatsAux

variable {T : CursorText} {db : WorkspaceTables} {δ : Type} {details : RawMeChatRow → δ} {humanAgentId organizationId : String}
  {query : ListMeChatsQuery}

/-! ## Cursors -/

/-- The cursor of a chat is read back. -/
theorem decodeCursor_encodeCursor (d : Date) {chatId : List Char} (hne : chatId ≠ []) (hbar : '|' ∉ chatId) :
    decodeCursor T (encodeCursor T d chatId) = some (d, chatId) := by
  have hsplit : (cursorVersion ++ '|' :: (T.toISOString d ++ '|' :: chatId)).splitOn '|' =
      [cursorVersion, T.toISOString d, chatId] := by
    rw [List.splitOn_append_cons_self_of_not_mem (by decide), List.splitOn_append_cons_self_of_not_mem (T.no_bar d),
      List.splitOn_eq_singleton hbar]
  have hdate : (T.toISOString d).isEmpty = false := List.isEmpty_eq_false_iff.mpr (T.toISOString_ne_nil d)
  have hid : chatId.isEmpty = false := List.isEmpty_eq_false_iff.mpr hne
  simp only [decodeCursor, encodeCursor, T.ofBase64url_toBase64url, hsplit, hdate, hid, decide_true, Bool.not_false, Bool.and_self,
    if_true, T.read_toISOString, Option.map_some]

/-- A cursor is never empty. -/
theorem encodeCursor_ne_nil (d : Date) (chatId : List Char) : encodeCursor T d chatId ≠ [] :=
  T.toBase64url_ne_nil _ (by simp [cursorVersion])

/-- The cursor of a row. -/
def rowCursor (T : CursorText) (row : RawMeChatRow) : List Char := encodeCursor T row.chat.activityAt.toDate row.chat.id.chars

/-- The cursor of a row is read as its date and its id. -/
theorem queryCursor_rowCursor (row : RawMeChatRow) :
    queryCursor T (some (rowCursor T row)) = .ok (some (row.chat.activityAt.toDate, row.chat.id)) := by
  have hdecode : decodeCursor T (rowCursor T row) = some (row.chat.activityAt.toDate, row.chat.id.chars) :=
    decodeCursor_encodeCursor _ row.chat.id_ne_nil row.chat.id_no_bar
  cases hc : rowCursor T row with
  | nil => exact absurd hc (encodeCursor_ne_nil _ _)
  | cons c rest =>
    rw [hc] at hdecode
    simp only [queryCursor, hdecode]

/-! ## Rows -/

/-- A matching row is determined by its chat. -/
theorem row_eq_of_id {row row' : RawMeChatRow} (h : row ∈ matchingRows db humanAgentId organizationId query)
    (h' : row' ∈ matchingRows db humanAgentId organizationId query) (hid : row.chat.id = row'.chat.id) : row = row' := by
  obtain ⟨chat, hchat, hjoin⟩ := List.mem_filterMap.mp (List.mem_filter.mp h).1
  obtain ⟨chat', hchat', hjoin'⟩ := List.mem_filterMap.mp (List.mem_filter.mp h').1
  obtain ⟨mode, hmode, rfl⟩ := Option.map_eq_some_iff.mp hjoin
  obtain ⟨mode', hmode', rfl⟩ := Option.map_eq_some_iff.mp hjoin'
  obtain rfl : chat = chat' := List.inj_on_of_nodup_map db.ids_nodup hchat hchat' hid
  rw [hmode] at hmode'
  rw [Option.some.inj hmode']

variable [LinearOrder SqlText]

/-- Removing duplicates leaves a row of every chat that was not seen. -/
theorem exists_mem_dedupeFrom {seen : List SqlText} {rows : List RawMeChatRow} {row : RawMeChatRow} (h : row ∈ rows)
    (hseen : row.chat.id ∉ seen) : ∃ row' ∈ dedupeFrom seen rows, row'.chat.id = row.chat.id := by
  induction rows generalizing seen with
  | nil => cases h
  | cons r rows ih =>
    unfold dedupeFrom
    split
    · rename_i hr
      rcases List.mem_cons.mp h with rfl | h
      · exact absurd hr hseen
      · exact ih h hseen
    · by_cases hid : r.chat.id = row.chat.id
      · exact ⟨r, List.mem_cons_self, hid⟩
      · rcases List.mem_cons.mp h with rfl | h
        · exact absurd rfl hid
        · obtain ⟨row', hmem, hrow'⟩ := @ih (r.chat.id :: seen) h (by simp [hseen, Ne.symm hid])
          exact ⟨row', List.mem_cons_of_mem r hmem, hrow'⟩

/-- Removing duplicates adds no row. -/
theorem dedupeFrom_subset (seen : List SqlText) (rows : List RawMeChatRow) : dedupeFrom seen rows ⊆ rows := by
  induction rows generalizing seen with
  | nil => exact List.Subset.refl _
  | cons r rows ih =>
    unfold dedupeFrom
    split
    · exact List.Subset.trans (ih seen) (List.subset_cons_self r rows)
    · exact List.cons_subset_cons r (ih _)

/-- The enriched row of a chat is that of its row, when all rows match the query. -/
theorem rowById_enriched {rows : List RawMeChatRow} (hrows : ∀ r ∈ rows, r ∈ matchingRows db humanAgentId organizationId query)
    {row : RawMeChatRow} (h : row ∈ rows) :
    rowById ((dedupeRawByChatId rows).map (enrichRow details)) row.chat.id = some (enrichRow details row) := by
  unfold rowById dedupeRawByChatId
  obtain ⟨row', hmem, hid⟩ := exists_mem_dedupeFrom h (List.not_mem_nil (a := row.chat.id))
  cases hfind : ((dedupeFrom [] rows).map (enrichRow details)).reverse.find? (·.chatId = row.chat.id) with
  | none =>
    have hmem' : enrichRow details row' ∈ ((dedupeFrom [] rows).map (enrichRow details)).reverse :=
      List.mem_reverse.mpr (List.mem_map_of_mem hmem)
    have := List.find?_eq_none.mp hfind _ hmem'
    exact absurd hid (by simpa [enrichRow] using this)
  | some found =>
    have hid' := List.find?_some hfind
    obtain ⟨row'', hmem'', rfl⟩ := List.mem_map.mp (List.mem_reverse.mp (List.mem_of_find?_eq_some hfind))
    have heq : row'' = row :=
      row_eq_of_id (hrows _ (dedupeFrom_subset [] rows hmem'')) (hrows _ h) (by simpa [enrichRow] using hid')
    rw [heq]

/-! ## Pages -/

/-- Below the key of a chat with its activity cut to milliseconds. -/
def IsBelowCut (k k' : Timestamp ×ₗ SqlText) : Prop :=
  (ofLex k').1.micros < (ofLex k).1.toDate.micros ∨
    (ofLex k').1.micros = (ofLex k).1.toDate.micros ∧ (ofLex k').2 < (ofLex k).2

instance (k k' : Timestamp ×ₗ SqlText) : Decidable (IsBelowCut k k') := inferInstanceAs (Decidable (_ ∨ _))

/-- What is below the cut key is below the key. -/
theorem lt_of_isBelowCut {k k' : Timestamp ×ₗ SqlText} (h : IsBelowCut k k') : k' < k := by
  have hle := toDate_le (ofLex k).1
  refine Prod.Lex.lt_iff.mpr ?_
  rcases h with hlt | ⟨heq, hid⟩
  · exact .inl (lt_iff.mpr (by omega))
  · rcases lt_or_eq_of_le hle with hlt | hexact
    · exact .inl (lt_iff.mpr (by omega))
    · exact .inr ⟨micros_injective (heq.trans hexact), hid⟩

/-- With a key, every lower one is below the cut key. -/
theorem isBelowCut_of_le {k k' k'' : Timestamp ×ₗ SqlText} (h : IsBelowCut k k') (hle : k'' ≤ k') : IsBelowCut k k'' := by
  rcases Prod.Lex.le_iff.mp hle with hlt | ⟨heq, hid⟩
  · have hlt' := lt_iff.mp hlt
    rcases h with h | ⟨h, _⟩
    · exact .inl (by omega)
    · exact .inl (by omega)
  · unfold IsBelowCut
    rw [heq]
    rcases h with h | ⟨h, hid'⟩
    · exact .inl h
    · exact .inr ⟨h, hid.trans_lt hid'⟩

/-- What the cursor of a chat cuts off. -/
def activityCut : Keyset.Cut (Timestamp ×ₗ SqlText) where
  cut k k' := decide (IsBelowCut k k')
  below _ _ h := lt_of_isBelowCut (of_decide_eq_true h)
  down _ _ _ h hle := decide_eq_true (isBelowCut_of_le (of_decide_eq_true h) hle)

/-- The rows that a cursor leaves. -/
def admitsRow (T : CursorText) (cursor : Option (List Char)) : RawMeChatRow → Bool :=
  match queryCursor T cursor with
  | .error _ => fun _ => false
  | .ok decoded => isBelow decoded

/-- A page of the list: the ordinary rows, and the next cursor. -/
def ordinaryPage (response : ListMeChatsResponse δ) : Keyset.Page (MeChatRow δ) (List Char) := ⟨response.rows, response.nextCursor⟩

/-- The requests of a query, cursor by cursor. -/
def requests (T : CursorText) (db : WorkspaceTables) (order : Keyset.OrderBy rowKey) (details : RawMeChatRow → δ)
    (humanAgentId organizationId : String) (query : ListMeChatsQuery) (i : Nat) (cursor : Option (List Char)) :
    Except ServiceError (Keyset.Page (MeChatRow δ) (List Char)) :=
  (listMeChats T db (order.sort i) details humanAgentId organizationId { query with cursor := cursor }).map ordinaryPage

/-- The first page shows its rows, whichever of them are pinned. -/
theorem filterMap_rowById (details : RawMeChatRow → δ) {pinnedRaw : List RawMeChatRow} (items : List RawMeChatRow)
    (hitems : ∀ r ∈ items, r ∈ matchingRows db humanAgentId organizationId query)
    (hpinned : ∀ r ∈ pinnedRaw, r ∈ matchingRows db humanAgentId organizationId query) :
    items.filterMap (fun row => rowById ((dedupeRawByChatId (items ++ pinnedRaw)).map (enrichRow details)) row.chat.id) =
      items.map (enrichRow details) := by
  have hall : ∀ r ∈ items ++ pinnedRaw, r ∈ matchingRows db humanAgentId organizationId query := by
    intro r hr
    rcases List.mem_append.mp hr with hr | hr
    · exact hitems r hr
    · exact hpinned r hr
  rw [List.filterMap_congr fun row hrow => rowById_enriched hall (List.mem_append_left pinnedRaw hrow)]
  exact congrFun (List.filterMap_eq_map (f := enrichRow details)) items

/-- The list answers with pages cut off below the key of their last row, with its activity cut to milliseconds. -/
theorem answers_listMeChats (query : ListMeChatsQuery) (order : Keyset.OrderBy rowKey) :
    Keyset.Answers activityCut query.limit.value order (rowCursor T) (admitsRow T) (enrichRow details)
      (matchingRows db humanAgentId organizationId query)
      (requests T db order details humanAgentId organizationId query) where
  first _ _ := rfl
  next b _ x _ := by
    rw [admitsRow, queryCursor_rowCursor]
    rw [Bool.eq_iff_iff]
    simp only [isBelow, Option.all_some, Bool.or_eq_true, Bool.and_eq_true, decide_eq_true_eq, activityCut]
    rfl
  ok i cursor hcursor := by
    rcases hcursor with rfl | ⟨b, _, rfl⟩
    · have hfound : ∀ (p : RawMeChatRow → Bool), ∀ r ∈ order.sort i ((matchingRows db humanAgentId organizationId query).filter p),
          r ∈ matchingRows db humanAgentId organizationId query :=
        fun p r hr => (List.mem_filter.mp ((order.perm i _).mem_iff.mp hr)).1
      have hrows := filterMap_rowById details
        (Keyset.page query.limit.value (rowCursor T) ((order.sort i ((matchingRows db humanAgentId organizationId query).filter
          (isBelow none))).take (query.limit.value + 1))).items
        (fun r hr => hfound _ r (List.mem_of_mem_take (Keyset.items_subset _ _ _ hr)))
        (hfound isPinned)
      exact congrArg (fun rows => Except.ok (Keyset.Page.mk rows _)) hrows
    · unfold requests listMeChats
      dsimp only
      rw [admitsRow, queryCursor_rowCursor]
      rfl

end MeChatsAux

open MeChatsAux

/-- Following the cursors of a query shows every chat that matches it exactly once, by descending activity and id, if and only if at
every page end the next chat is below the last one of the page with its activity cut to milliseconds. -/
theorem my_chats_complete_iff {δ : Type} [LinearOrder SqlText] (T : CursorText) (db : WorkspaceTables) (order : Keyset.OrderBy rowKey)
    (details : RawMeChatRow → δ) (humanAgentId organizationId : String) (query : ListMeChatsQuery) :
    Keyset.Complete (requests T db order details humanAgentId organizationId query) rowKey (enrichRow details)
        (matchingRows db humanAgentId organizationId query) ↔
      Keyset.CutsPages activityCut query.limit.value
        (Keyset.descending ((matchingRows db humanAgentId organizationId query).map rowKey)) :=
  Keyset.complete_iff (answers_listMeChats query order) query.limit.positive

/-! ## A run -/

namespace MeChatsAux

/-- A text as a number: its characters are the digits, none of them zero. -/
def textNumber (t : SqlText) : Nat := Nat.ofDigits 0x110001 (t.chars.map fun c => c.toNat + 1)

/-- The number of a text determines it. -/
theorem textNumber_injective : Function.Injective textNumber := by
  have hdigits : ∀ t : SqlText, Nat.digits 0x110001 (textNumber t) = t.chars.map fun c => c.toNat + 1 := by
    intro t
    refine Nat.digits_ofDigits _ (by decide) _ (fun d hd => ?_) fun h hlast => ?_
    · obtain ⟨c, _, rfl⟩ := List.mem_map.mp hd
      have hlt : c.toNat < 0x110000 := by
        rcases c.valid with h | ⟨_, h⟩
        · exact lt_trans h (by decide)
        · exact h
      omega
    · obtain ⟨c, _, hc⟩ := List.mem_map.mp (List.getLast_mem h)
      omega
  rintro ⟨s⟩ ⟨t⟩ h
  have hmap : s.map (fun c => c.toNat + 1) = t.map fun c => c.toNat + 1 := by
    rw [← hdigits ⟨s⟩, ← hdigits ⟨t⟩, h]
  have hinj : Function.Injective fun c : Char => c.toNat + 1 := fun c d hcd => Char.toNat_inj.mp (Nat.succ_inj.mp hcd)
  rw [List.map_injective_iff.mpr hinj hmap]

/-- A collation that compares characters by code points. -/
@[reducible] def codePointOrder : LinearOrder SqlText := LinearOrder.lift' textNumber textNumber_injective

/-- The payload of the cursor of the chat `a`, active at the epoch. -/
def epochPayload : List Char := "v2|1970-01-01T00:00:00.000Z|a".toList

/-- The cursor of that payload. -/
def epochCursor : List Char := "djJ8MTk3MC0wMS0wMVQwMDowMDowMC4wMDBafGE".toList

/-- The texts of the runtime, with that cursor, and for other payloads a mark in front. -/
def epochCursors : CursorText where
  toDateText := epochDates
  toBase64url t := if t = epochPayload then epochCursor else '.' :: t
  ofBase64url t := if t = epochCursor then epochPayload else t.tail
  ofBase64url_toBase64url t := by
    split
    · rename_i h
      rw [if_pos rfl, h]
    · have hne : '.' :: t ≠ epochCursor := by
        intro h
        have hhead : some '.' = epochCursor.head? := congrArg List.head? h
        exact absurd hhead (by decide)
      rw [if_neg hne, List.tail_cons]
  toBase64url_ne_nil t _ := by
    split
    · decide
    · exact List.cons_ne_nil _ _

/-- A chat active some microseconds after the epoch. -/
def epochChat (id : Char) (hid : id ≠ '|') (micros : Nat) (h : (micros : Int) / 1000 = 0) : WorkspaceChat :=
  ⟨⟨[id]⟩, "org", none, none, ⟨micros, by rw [h]; decide⟩, List.cons_ne_nil _ _, by simpa using Ne.symm hid⟩

/-- Two chats active within one millisecond. -/
def closeChats : WorkspaceTables where
  chats := [epochChat 'a' (by decide) 500 rfl, epochChat 'b' (by decide) 400 rfl]
  ids_nodup := by simp [epochChat]
  membership _ _ := some .speaker
  userState _ _ := none

/-- All active chats, one on a page. -/
def oneByOne : ListMeChatsQuery := ⟨none, ⟨1, Nat.le_refl 1⟩, false, false, .active, none, none⟩

end MeChatsAux

section

attribute [local instance] codePointOrder

/-- Two chats active within one millisecond: with one chat on a page, the second is on none. -/
theorem close_chats_lost :
    ¬ Keyset.Complete (requests epochCursors closeChats (.stable rowKey) (fun _ => ()) "h" "org" oneByOne) rowKey
      (enrichRow fun _ => ()) (matchingRows closeChats "h" "org" oneByOne) := by
  intro hcomplete
  have hcuts := (Keyset.complete_iff (answers_listMeChats oneByOne (.stable rowKey)) (Nat.le_refl 1)).mp hcomplete
  exact absurd (hcuts 0 _ _ rfl rfl) (by decide)

end

end FirstTree

import FirstTree.Lemmas.ListCursor
import FirstTree.Server.Listings

/-!
# Completeness of the lists with a timestamp cursor

When following the cursors of the lists of agents, chats and sessions shows every row exactly once. A cursor keeps milliseconds and
names no row, so a page has to end between two timestamps that the cut to milliseconds keeps apart.
-/

namespace FirstTree

open Listings ListCursor ListCursorAux

namespace ListingsAux

variable {D : DateText} {db : ListTables} {limit : PageLimit}

/-- A page is its own, when its rows are shown as they are. -/
theorem map_id_page {α : Type} (r : Except ServiceError (Keyset.Page α (List Char))) : r.map (·.map id) = r := by
  cases r with
  | error e => rfl
  | ok p => simp only [Except.map, Keyset.Page.map, List.map_id]

variable (limit) in
/-- Following a list ordered by a timestamp is complete when no page ends inside a millisecond. -/
theorem timestampPage_complete_iff {α β : Type} {invalid : List Char → ServiceError} {column : α → Timestamp}
    (order : Keyset.OrderBy column) {seen : α → β} {rows : List α}
    {request : Nat → Option (List Char) → Except ServiceError (Keyset.Page β (List Char))}
    (h : ∀ i cursor, Keyset.IsCursor (cursorOf D column) rows cursor →
      request i cursor = (timestampPage D invalid column (order.sort i) rows limit.value cursor).map (·.map seen)) :
    Keyset.Complete request column seen rows ↔ Keyset.CutsPages dateCut limit.value (Keyset.descending (rows.map column)) :=
  Keyset.complete_iff (answers_timestampPage h) limit.positive

/-- An agent that speaks in no chat has none on its list. -/
theorem listChats_eq (order : Keyset.OrderBy ListedChat.updatedAt) (agentId : String) (i : Nat) (cursor : Option (List Char))
    (hcursor : Keyset.IsCursor (cursorOf D ListedChat.updatedAt) (listedChats db agentId) cursor) :
    listChats D db (order.sort i) agentId limit.value cursor =
      timestampPage D invalidTime ListedChat.updatedAt (order.sort i) (listedChats db agentId) limit.value cursor := by
  unfold listChats
  split
  · rename_i hnone
    have hrows : listedChats db agentId = [] := by
      rw [listedChats, hnone]
      exact List.filter_eq_nil_iff.mpr fun _ _ => by simp
    rw [hrows] at hcursor ⊢
    rcases hcursor with rfl | ⟨b, hb, _⟩
    · have hempty : order.sort i [] = [] := (order.perm i []).eq_nil
      simp only [timestampPage, cursorDate, List.filter_nil, hempty]
      rfl
    · exact absurd hb List.not_mem_nil
  · rfl

end ListingsAux

open ListingsAux

/-- Each of the four lists, whatever its filters and however the database orders rows with one timestamp, shows every row it selects
exactly once, when its cursors are followed, if and only if at every page end the next timestamp is before the last one of the
page cut to milliseconds. -/
theorem timestamp_cursor_lists_complete_iff (D : DateText) (db : ListTables) (limit : PageLimit) :
    (∀ (order : Keyset.OrderBy ListedAgent.createdAt) (scope : OrgScope),
      Keyset.Complete (fun i => listAgentsForAdmin D db (order.sort i) scope limit.value) ListedAgent.createdAt id
          (db.agents.filter (isListedForAdmin scope)) ↔
        Keyset.CutsPages dateCut limit.value
          (Keyset.descending ((db.agents.filter (isListedForAdmin scope)).map ListedAgent.createdAt))) ∧
    (∀ (order : Keyset.OrderBy ListedAgent.createdAt) (scope : OrgScope) (filters : AgentFilters),
      Keyset.Complete (fun i => listAgentsForMember D db (order.sort i) scope filters limit.value) ListedAgent.createdAt id
          (db.agents.filter (isListedForMember db scope filters)) ↔
        Keyset.CutsPages dateCut limit.value
          (Keyset.descending ((db.agents.filter (isListedForMember db scope filters)).map ListedAgent.createdAt))) ∧
    (∀ (order : Keyset.OrderBy ListedChat.updatedAt) (agentId : String),
      Keyset.Complete (fun i => listChats D db (order.sort i) agentId limit.value) ListedChat.updatedAt id (listedChats db agentId) ↔
        Keyset.CutsPages dateCut limit.value (Keyset.descending ((listedChats db agentId).map ListedChat.updatedAt))) ∧
    ∀ (δ : Type) (order : Keyset.OrderBy sessionUpdatedAt) (details : JoinedSession → δ) (organizationId : String)
      (viewer : OrgSessionListViewer) (filters : SessionFilters),
      Keyset.Complete (fun i => listAllSessions D db (order.sort i) details organizationId viewer filters limit.value)
        sessionUpdatedAt
          (sessionItem D details) (listedSessions db organizationId viewer filters) ↔
        Keyset.CutsPages dateCut limit.value
          (Keyset.descending ((listedSessions db organizationId viewer filters).map sessionUpdatedAt)) := by
  refine ⟨fun order scope => ?_, fun order scope filters => ?_, fun order agentId => ?_,
    fun δ order details organizationId viewer filters => ?_⟩
  · exact timestampPage_complete_iff limit order fun _ _ _ => (map_id_page _).symm
  · exact timestampPage_complete_iff limit order fun _ _ _ => (map_id_page _).symm
  · exact timestampPage_complete_iff limit order
      fun i cursor hcursor => by rw [map_id_page, listChats_eq order agentId i cursor hcursor]
  · exact timestampPage_complete_iff limit order fun _ _ _ => rfl

/-- An agent of an organization, created at the epoch. -/
def epochAgent (uuid : String) : ListedAgent :=
  ⟨uuid, "org", "agent", none, uuid.toList, "active", "organization", "m", none, epoch⟩

/-- Two agents created in one transaction share their timestamp: with one agent on a page, the second is on none. -/
theorem tied_agents_lost :
    ¬ Keyset.Complete
      (fun i => listAgentsForAdmin epochDates ⟨[epochAgent "a", epochAgent "b"], [], [], [], [], fun _ _ => true⟩
        ((Keyset.OrderBy.stable ListedAgent.createdAt).sort i) ⟨"org", "m"⟩ 1)
      ListedAgent.createdAt id [epochAgent "a", epochAgent "b"] := by
  intro hcomplete
  have hcuts := (timestampPage_complete_iff ⟨1, Nat.le_refl 1⟩ (.stable ListedAgent.createdAt)
    fun _ _ _ => (map_id_page _).symm).mp hcomplete
  exact absurd (hcuts 0 epoch epoch rfl rfl) (by decide)

end FirstTree

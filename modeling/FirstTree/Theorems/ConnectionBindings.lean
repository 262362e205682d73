import FirstTree.Lib.Runs
import FirstTree.Server.ConnectionManager

/-!
# The bindings of the connection manager

What the maps say of an agent is one value: the bind it is at, or none. Every call moves agents between such values, but for one: a
registration that finds an entry with agents and does not clean it, because the socket is the same or no longer open, keeps their
bindings and drops them from the entry.
-/

namespace FirstTree

open Runs ConnectionManager

variable {Client Agent Token Ws : Type} [DecidableEq Client] [DecidableEq Agent] [DecidableEq Token] [DecidableEq Ws]

namespace ConnectionManager

/-- The socket a client is registered with. -/
def registeredSocket (s : Connections Client Agent Token Ws) (clientId : Client) : Option Ws :=
  (s.clientConnections.lookup clientId).map (·.ws)

/-- The last bind of an agent. -/
def latestBind (binds : List (BindRecord Client Agent Token Ws)) (agentId : Agent) : Option (BindRecord Client Agent Token Ws) :=
  (binds.filter fun bind => decide (bind.agentId = agentId)).getLast?

/-- The maps are inverse to each other, and a token that validates is the one of the agent's last bind, whose socket is still
registered. -/
structure BindingsConsistent (s : ConnectionLog Client Agent Token Ws) : Prop where
  mapped : ∀ a c, s.connections.agentToClient.lookup a = some c ↔
    ∃ entry, s.connections.clientConnections.lookup c = some entry ∧ a ∈ entry.agentIds
  active : ∀ c entry a, s.connections.clientConnections.lookup c = some entry → a ∈ entry.agentIds →
    s.connections.activeConnections.lookup a = some entry.ws
  session : ∀ c entry a, s.connections.clientConnections.lookup c = some entry → a ∈ entry.agentIds →
    (s.connections.agentRuntimeSessions.lookup a).map (·.clientId) = some c
  unbound : ∀ a, (∀ c entry, s.connections.clientConnections.lookup c = some entry → a ∉ entry.agentIds) →
    s.connections.activeConnections.lookup a = none ∧ s.connections.agentRuntimeSessions.lookup a = none
  latest : ∀ a c token, validateAgentRuntimeSession s.connections a c token = true →
    ∃ bind, latestBind s.binds a = some bind ∧ bind.clientId = c ∧ bind.token = token ∧
      registeredSocket s.connections c = some bind.ws
  token : ∀ bind ∈ s.binds, (∀ other ∈ s.binds, other.token = bind.token → other = bind) → ∀ a c,
    validateAgentRuntimeSession s.connections a c bind.token = true →
    a = bind.agentId ∧ c = bind.clientId ∧ registeredSocket s.connections bind.clientId = some bind.ws

/-- In every run from the start the bindings are consistent. -/
def AlwaysConsistent
    (steps : ConnectionLog Client Agent Token Ws → ConnectionOp Client Agent Token Ws → ConnectionLog Client Agent Token Ws → Prop) :
    Prop :=
  ∀ ops s, Run steps init ops s → BindingsConsistent s

/-- A client is registered only when it has no entry, or one without agents, or another socket that is still open. -/
def KeepsBindings (s : ConnectionLog Client Agent Token Ws) : ConnectionOp Client Agent Token Ws → Prop
  | .setClientConnection clientId ws => ∀ entry, s.connections.clientConnections.lookup clientId = some entry →
      entry.agentIds = [] ∨ (entry.ws ≠ ws ∧ (s.connections.sockets entry.ws).readyState = .connected)
  | _ => True

end ConnectionManager

namespace ConnectionBindingsAux

/-! ## Where an agent is -/

/-- An agent is in the entry of a client with a socket. -/
def Seated (s : Connections Client Agent Token Ws) (a : Agent) (c : Client) (ws : Ws) : Prop :=
  ∃ entry, s.clientConnections.lookup c = some entry ∧ entry.ws = ws ∧ a ∈ entry.agentIds

/-- The maps say of an agent that it is at a bind, or at none. -/
structure At (s : Connections Client Agent Token Ws) (a : Agent) (p : Option (BindRecord Client Agent Token Ws)) : Prop where
  client : s.agentToClient.lookup a = p.map (·.clientId)
  active : s.activeConnections.lookup a = p.map (·.ws)
  session : s.agentRuntimeSessions.lookup a = p.map fun bind => ⟨bind.clientId, bind.token⟩
  seated : ∀ c ws, Seated s a c ws ↔ p.map (fun bind => (bind.clientId, bind.ws)) = some (c, ws)

/-- The maps say where each agent is. -/
def Represents (s : Connections Client Agent Token Ws) (place : Agent → Option (BindRecord Client Agent Token Ws)) : Prop :=
  ∀ a, At s a (place a)

omit [DecidableEq Token] [DecidableEq Ws] in
/-- What the maps say of an agent rests on its own keys and its seats. -/
theorem At.congr {s s' : Connections Client Agent Token Ws} {a : Agent} {p : Option (BindRecord Client Agent Token Ws)} (h : At s a p)
    (hclient : s'.agentToClient.lookup a = s.agentToClient.lookup a)
    (hactive : s'.activeConnections.lookup a = s.activeConnections.lookup a)
    (hsession : s'.agentRuntimeSessions.lookup a = s.agentRuntimeSessions.lookup a)
    (hseated : ∀ c ws, Seated s' a c ws ↔ Seated s a c ws) : At s' a p :=
  ⟨hclient.trans h.client, hactive.trans h.active, hsession.trans h.session, fun c ws => (hseated c ws).trans (h.seated c ws)⟩

omit [DecidableEq Token] [DecidableEq Ws] in
/-- An agent without keys and seats is nowhere. -/
theorem at_none {s : Connections Client Agent Token Ws} {a : Agent} (hclient : s.agentToClient.lookup a = none)
    (hactive : s.activeConnections.lookup a = none) (hsession : s.agentRuntimeSessions.lookup a = none)
    (hseated : ∀ c ws, ¬ Seated s a c ws) : At s a none :=
  ⟨hclient, hactive, hsession, fun c ws => ⟨fun h => absurd h (hseated c ws), fun h => absurd h (by simp)⟩⟩

omit [DecidableEq Token] [DecidableEq Ws] in
/-- A seat of an agent is at its client. -/
theorem At.client_of_seated {s : Connections Client Agent Token Ws} {a : Agent} {p : Option (BindRecord Client Agent Token Ws)}
    (h : At s a p) {c : Client} {ws : Ws} (hs : Seated s a c ws) : p.map (·.clientId) = some c := by
  obtain ⟨bind, hp, heq⟩ := Option.map_eq_some_iff.mp ((h.seated c ws).mp hs)
  rw [hp, ← (Prod.mk.inj heq).1]
  rfl

/-! ## Sockets -/

omit [DecidableEq Token] [DecidableEq Ws] in
/-- Where the agents are does not depend on the sockets. -/
theorem represents_sockets {s : Connections Client Agent Token Ws} {place : Agent → Option (BindRecord Client Agent Token Ws)}
    (h : Represents s place) (sockets : Ws → Socket Agent) : Represents { s with sockets := sockets } place :=
  fun a => ⟨(h a).client, (h a).active, (h a).session, (h a).seated⟩

omit [DecidableEq Client] [DecidableEq Agent] [DecidableEq Token] in
/-- A close changes the sockets only. -/
theorem close_eq (s : Connections Client Agent Token Ws) (ws : Ws) (code : Nat) (reason : String) :
    close s ws code reason = { s with sockets := (close s ws code reason).sockets } := by
  unfold close
  split
  · rfl
  · rfl

omit [DecidableEq Agent] [DecidableEq Token] in
/-- A notice changes the sockets only. -/
theorem notifyClient_eq (s : Connections Client Agent Token Ws) (c : Client) (a : Agent) (reason : Option String) :
    notifyClient s c a reason = { s with sockets := (notifyClient s c a reason).sockets } := by
  unfold notifyClient
  split
  · split
    · rfl
    · rfl
  · rfl

/-! ## Clients that leave -/

omit [DecidableEq Token] [DecidableEq Ws] in
/-- When the agents of a client lose their keys and seats, the agents of the other clients stay where they are. -/
theorem represents_vacate {s s' : Connections Client Agent Token Ws} {place : Agent → Option (BindRecord Client Agent Token Ws)}
    (h : Represents s place) (c : Client) (ids : List Agent) (hids : ∀ a, a ∈ ids ↔ ∃ ws, Seated s a c ws)
    (hclient : ∀ a, s'.agentToClient.lookup a = if a ∈ ids then none else s.agentToClient.lookup a)
    (hactive : ∀ a, s'.activeConnections.lookup a = if a ∈ ids then none else s.activeConnections.lookup a)
    (hsession : ∀ a, s'.agentRuntimeSessions.lookup a = if a ∈ ids then none else s.agentRuntimeSessions.lookup a)
    (hseated : ∀ a c' ws, Seated s' a c' ws ↔ c' ≠ c ∧ Seated s a c' ws) :
    Represents s' fun a => if a ∈ ids then none else place a := by
  intro a
  have hc := hclient a
  have ha := hactive a
  have hs := hsession a
  by_cases hmem : a ∈ ids
  · simp only [if_pos hmem] at hc ha hs ⊢
    obtain ⟨ws, hseat⟩ := (hids a).mp hmem
    refine at_none hc ha hs fun c' ws' hseat' => ?_
    obtain ⟨hne, hseat'⟩ := (hseated a c' ws').mp hseat'
    exact hne (Option.some.inj (((h a).client_of_seated hseat').symm.trans ((h a).client_of_seated hseat)))
  · simp only [if_neg hmem] at hc ha hs ⊢
    refine (h a).congr hc ha hs fun c' ws' => ⟨fun hseat => ((hseated a c' ws').mp hseat).2, fun hseat => ?_⟩
    refine (hseated a c' ws').mpr ⟨fun heq => ?_, hseat⟩
    subst heq
    exact hmem ((hids a).mpr ⟨ws', hseat⟩)

omit [DecidableEq Agent] [DecidableEq Token] [DecidableEq Ws] in
/-- The agents in the entry of a client are those with a seat there. -/
theorem mem_agentIds_iff {s : Connections Client Agent Token Ws} {c : Client} {entry : ClientEntry Agent Ws}
    (h : s.clientConnections.lookup c = some entry) (a : Agent) : a ∈ entry.agentIds ↔ ∃ ws, Seated s a c ws := by
  constructor
  · exact fun ha => ⟨entry.ws, entry, h, rfl, ha⟩
  · rintro ⟨_, entry', h', _, ha⟩
    rw [h] at h'
    exact Option.some.inj h' ▸ ha

omit [DecidableEq Token] [DecidableEq Ws] in
/-- The deletion of a client takes its agents out of the maps. -/
theorem represents_deleteClient {s : Connections Client Agent Token Ws} {place : Agent → Option (BindRecord Client Agent Token Ws)}
    (h : Represents s place) {c : Client} {entry : ClientEntry Agent Ws} (hentry : s.clientConnections.lookup c = some entry) :
    Represents (deleteClient s c entry.agentIds) fun a => if a ∈ entry.agentIds then none else place a := by
  refine represents_vacate h c entry.agentIds (mem_agentIds_iff hentry) (fun a => ?_) (fun a => ?_) (fun a => ?_) fun a c' ws => ?_
  · simp [deleteClient, deleteBindings, AssocList.lookup_filterKeys]
  · simp [deleteClient, deleteBindings, AssocList.lookup_filterKeys]
  · simp [deleteClient, deleteBindings, AssocList.lookup_filterKeys]
  · by_cases hc : c' = c
    · subst hc
      simp [Seated, deleteClient, deleteBindings]
    · simp [Seated, deleteClient, deleteBindings, hc, AList.lookup_erase_ne]

omit [DecidableEq Token] in
/-- A registration that keeps the bindings takes the agents of the old entry out of the maps. -/
theorem represents_setClientConnection {s : Connections Client Agent Token Ws}
    {place : Agent → Option (BindRecord Client Agent Token Ws)} (h : Represents s place) {c : Client} {ws : Ws}
    (hkeeps : ∀ entry, s.clientConnections.lookup c = some entry →
      entry.agentIds = [] ∨ (entry.ws ≠ ws ∧ (s.sockets entry.ws).readyState = .connected)) :
    ∃ ids : List Agent, Represents (setClientConnection s c ws) fun a => if a ∈ ids then none else place a := by
  have hseated : ∀ (m : Connections Client Agent Token Ws), m.clientConnections = s.clientConnections → ∀ a c' ws',
      Seated { m with clientConnections := m.clientConnections.insert c ⟨ws, []⟩ } a c' ws' ↔ c' ≠ c ∧ Seated s a c' ws' := by
    intro m hm a c' ws'
    by_cases hc : c' = c
    · subst hc
      simp [Seated]
    · simp [Seated, hc, hm, AList.lookup_insert_ne]
  cases hentry : s.clientConnections.lookup c with
  | none =>
    refine ⟨[], represents_vacate h c [] (fun a => ?_) (fun a => ?_) (fun a => ?_) (fun a => ?_) ?_⟩
    · simp [Seated, hentry]
    all_goals simp only [setClientConnection, hentry]
    · simp
    · simp
    · simp
    · exact hseated s rfl
  | some entry =>
    by_cases hclean : entry.ws ≠ ws ∧ (s.sockets entry.ws).readyState = .connected
    · refine ⟨entry.agentIds, represents_vacate h c entry.agentIds (mem_agentIds_iff hentry) (fun a => ?_) (fun a => ?_)
        (fun a => ?_) ?_⟩
      all_goals simp only [setClientConnection, hentry, if_pos hclean]
      all_goals rw [close_eq]
      · simp [deleteBindings, AssocList.lookup_filterKeys]
      · simp [deleteBindings, AssocList.lookup_filterKeys]
      · simp [deleteBindings, AssocList.lookup_filterKeys]
      · exact hseated _ rfl
    · have hnil : entry.agentIds = [] := (hkeeps entry hentry).resolve_right hclean
      refine ⟨[], represents_vacate h c [] (fun a => ?_) (fun a => ?_) (fun a => ?_) (fun a => ?_) ?_⟩
      · rw [← mem_agentIds_iff hentry, hnil]
      all_goals simp only [setClientConnection, hentry, if_neg hclean]
      · simp
      · simp
      · simp
      · exact hseated s rfl

/-! ## Agents that come and go -/

omit [DecidableEq Token] [DecidableEq Ws] in
/-- The seats after an agent has left the entry of a client. -/
theorem seated_removeAgentId (s : Connections Client Agent Token Ws) (c : Client) (a a' : Agent) (c' : Client) (ws : Ws) :
    Seated (removeAgentId s c a) a' c' ws ↔ Seated s a' c' ws ∧ ¬ (c' = c ∧ a' = a) := by
  unfold removeAgentId
  cases hentry : s.clientConnections.lookup c with
  | none =>
    refine ⟨fun hseat => ⟨hseat, fun hsame => ?_⟩, fun hseat => hseat.1⟩
    obtain ⟨_, hlookup, _⟩ := hseat
    rw [hsame.1, hentry] at hlookup
    cases hlookup
  | some entry =>
    by_cases hc : c' = c
    · subst hc
      simp [Seated, hentry, and_assoc]
    · simp [Seated, hc, AList.lookup_insert_ne]

omit [DecidableEq Token] [DecidableEq Ws] in
/-- Leaving an entry keeps the other maps. -/
theorem removeAgentId_eq (s : Connections Client Agent Token Ws) (c : Client) (a : Agent) :
    removeAgentId s c a = { s with clientConnections := (removeAgentId s c a).clientConnections } := by
  unfold removeAgentId
  split
  · rfl
  · rfl

omit [DecidableEq Token] [DecidableEq Ws] in
/-- An unbind of an agent that is expected takes it out of the maps. -/
theorem represents_unbind {s : Connections Client Agent Token Ws} {place : Agent → Option (BindRecord Client Agent Token Ws)}
    (h : Represents s place) (a : Agent) (expected : Option Client) :
    Represents (unbindAgentFromClient s a expected).2 fun a' =>
      if a' = a ∧ unexpected (s.agentToClient.lookup a) expected = false then none else place a' := by
  unfold unbindAgentFromClient
  by_cases hunexpected : unexpected (s.agentToClient.lookup a) expected = true
  · simpa [hunexpected] using h
  · rw [Bool.not_eq_true] at hunexpected
    simp only [hunexpected, Bool.false_eq_true, if_false, and_true]
    have hclient := (h a).client
    cases hplace : place a with
    | none =>
      -- The agent is in no entry, and the deletions find nothing.
      rw [hplace, Option.map_none] at hclient
      intro a'
      by_cases ha : a' = a
      · subst ha
        have hat := h a'
        rw [hplace] at hat
        dsimp only
        rw [if_pos rfl, hclient]
        exact at_none hclient (AList.lookup_erase _ _) (AList.lookup_erase _ _) fun c ws hseat => by
          exact absurd ((hat.seated c ws).mp hseat) (by simp)
      · dsimp only
        rw [if_neg ha, hclient]
        exact (h a').congr rfl (AList.lookup_erase_ne ha) (AList.lookup_erase_ne ha) fun _ _ => Iff.rfl
    | some bind =>
      rw [hplace, Option.map_some] at hclient
      intro a'
      have hseated := seated_removeAgentId s bind.clientId a a'
      rw [hclient]
      dsimp only
      rw [removeAgentId_eq]
      by_cases ha : a' = a
      · subst ha
        rw [if_pos rfl]
        refine at_none (AList.lookup_erase _ _) (AList.lookup_erase _ _) (AList.lookup_erase _ _) fun c ws hseat => ?_
        obtain ⟨hseat, hne⟩ := (hseated c ws).mp hseat
        have hc := (h a').client_of_seated hseat
        rw [hplace] at hc
        exact hne ⟨(Option.some.inj hc).symm, rfl⟩
      · rw [if_neg ha]
        refine (h a').congr (AList.lookup_erase_ne ha) (AList.lookup_erase_ne ha) (AList.lookup_erase_ne ha) fun c ws => ?_
        exact (hseated c ws).trans (and_iff_left fun hsame => ha hsame.2)

omit [DecidableEq Token] [DecidableEq Ws] in
/-- An agent that leaves its previous client has a seat at the client it joins, or none. -/
theorem seated_leavePrevClient {s : Connections Client Agent Token Ws} {place : Agent → Option (BindRecord Client Agent Token Ws)}
    (h : Represents s place) (c : Client) (a a' : Agent) (c' : Client) (ws : Ws) :
    Seated (leavePrevClient s c a) a' c' ws ↔ Seated s a' c' ws ∧ (a' = a → c' = c) := by
  unfold leavePrevClient
  cases hclient : s.agentToClient.lookup a with
  | none =>
    refine ⟨fun hseat => ⟨hseat, ?_⟩, fun hseat => hseat.1⟩
    rintro rfl
    have hprev := (h a').client_of_seated hseat
    rw [← (h a').client, hclient] at hprev
    cases hprev
  | some prev =>
    have hprev : Seated s a c' ws → c' = prev := fun hseat => by
      have hc := (h a).client_of_seated hseat
      rw [← (h a).client, hclient] at hc
      exact (Option.some.inj hc).symm
    by_cases hne : prev = c
    · simp only [ne_eq, hne, not_true_eq_false, if_false]
      refine ⟨fun hseat => ⟨hseat, ?_⟩, fun hseat => hseat.1⟩
      rintro rfl
      exact (hprev hseat).trans hne
    · simp only [ne_eq, hne, not_false_eq_true, if_true]
      rw [seated_removeAgentId]
      refine and_congr_right fun hseat => ⟨?_, ?_⟩
      · rintro hother rfl
        exact absurd ⟨hprev hseat, rfl⟩ hother
      · rintro hjoins ⟨rfl, rfl⟩
        exact hne (hjoins rfl)

omit [DecidableEq Token] [DecidableEq Ws] in
/-- Leaving the previous client keeps the other maps. -/
theorem leavePrevClient_eq (s : Connections Client Agent Token Ws) (c : Client) (a : Agent) :
    leavePrevClient s c a = { s with clientConnections := (leavePrevClient s c a).clientConnections } := by
  unfold leavePrevClient
  split
  · split
    · exact removeAgentId_eq _ _ _
    · rfl
  · rfl

omit [DecidableEq Token] [DecidableEq Ws] in
/-- Leaving the previous client keeps the entry of the client that is joined. -/
theorem lookup_leavePrevClient (s : Connections Client Agent Token Ws) (c : Client) (a : Agent) :
    (leavePrevClient s c a).clientConnections.lookup c = s.clientConnections.lookup c := by
  unfold leavePrevClient
  split
  · next prev _ =>
    split
    · next hne =>
      unfold removeAgentId
      split
      · exact AList.lookup_insert_ne hne.symm
      · rfl
    · rfl
  · rfl

omit [DecidableEq Token] [DecidableEq Ws] in
/-- The seats after an agent has joined the entry of a client. -/
theorem seated_addAgentId {s : Connections Client Agent Token Ws} {c : Client} {entry : ClientEntry Agent Ws}
    (hentry : s.clientConnections.lookup c = some entry) (a a' : Agent) (c' : Client) (ws : Ws) :
    Seated (addAgentId s c a) a' c' ws ↔ Seated s a' c' ws ∨ (a' = a ∧ c' = c ∧ ws = entry.ws) := by
  simp only [addAgentId, hentry]
  by_cases hc : c' = c
  · subst hc
    by_cases ha : a ∈ entry.agentIds
    · simp only [Seated, AList.lookup_insert, Option.some.injEq, exists_eq_left', if_pos ha, hentry, true_and]
      refine ⟨Or.inl, ?_⟩
      rintro (hseat | ⟨rfl, rfl⟩)
      · exact hseat
      · exact ⟨rfl, ha⟩
    · simp only [Seated, AList.lookup_insert, Option.some.injEq, exists_eq_left', if_neg ha, hentry, true_and, List.mem_append,
        List.mem_singleton, and_or_left]
      exact or_congr_right ⟨fun hseat => ⟨hseat.2, hseat.1.symm⟩, fun hseat => ⟨hseat.2.symm, hseat.1⟩⟩
  · simp [Seated, hc, AList.lookup_insert_ne]

omit [DecidableEq Token] [DecidableEq Ws] in
/-- A bind puts its agent at the client, with the client's socket. -/
theorem represents_bind {s : Connections Client Agent Token Ws} {place : Agent → Option (BindRecord Client Agent Token Ws)}
    (h : Represents s place) {c : Client} {entry : ClientEntry Agent Ws} (hentry : s.clientConnections.lookup c = some entry)
    (a : Agent) (token : Token) :
    Represents (bindAgentToClient s c a token).2 (Function.update place a (some ⟨a, c, token, entry.ws⟩)) := by
  have hleft := (lookup_leavePrevClient s c a).trans hentry
  have hseated : ∀ a' c' ws, Seated (bindAgentToClient s c a token).2 a' c' ws ↔
      (Seated s a' c' ws ∧ (a' = a → c' = c)) ∨ (a' = a ∧ c' = c ∧ ws = entry.ws) := by
    intro a' c' ws
    rw [← seated_leavePrevClient h]
    exact seated_addAgentId hleft a a' c' ws
  have hmaps : (bindAgentToClient s c a token).2.agentToClient = s.agentToClient.insert a c ∧
      (bindAgentToClient s c a token).2.activeConnections = s.activeConnections.insert a entry.ws ∧
      (bindAgentToClient s c a token).2.agentRuntimeSessions = s.agentRuntimeSessions.insert a ⟨c, token⟩ := by
    simp only [bindAgentToClient, addAgentId, hleft]
    rw [leavePrevClient_eq]
    exact ⟨rfl, rfl, rfl⟩
  obtain ⟨hclient, hactive, hsession⟩ := hmaps
  intro a'
  by_cases ha : a' = a
  · subst ha
    rw [Function.update_self]
    refine ⟨?_, ?_, ?_, fun c' ws => (hseated a' c' ws).trans ⟨?_, ?_⟩⟩
    · rw [hclient, AList.lookup_insert]
      rfl
    · rw [hactive, AList.lookup_insert]
      rfl
    · rw [hsession, AList.lookup_insert]
      rfl
    · rintro (⟨⟨entry', hentry', rfl, _⟩, hc⟩ | ⟨_, rfl, rfl⟩)
      · rw [hc rfl, hentry] at hentry'
        obtain rfl := Option.some.inj hentry'
        rw [hc rfl]
        rfl
      · rfl
    · intro heq
      obtain ⟨rfl, rfl⟩ := Prod.mk.inj (Option.some.inj heq)
      exact Or.inr ⟨rfl, rfl, rfl⟩
  · rw [Function.update_of_ne ha]
    refine (h a').congr ?_ ?_ ?_ fun c' ws => ?_
    · rw [hclient, AList.lookup_insert_ne ha]
    · rw [hactive, AList.lookup_insert_ne ha]
    · rw [hsession, AList.lookup_insert_ne ha]
    · rw [hseated]
      simp [ha]

/-! ## One step -/

/-- The maps say where each agent is: nowhere, or at its last bind. -/
def Sound (s : ConnectionLog Client Agent Token Ws) : Prop :=
  ∃ place, Represents s.connections place ∧ ∀ a bind, place a = some bind → latestBind s.binds a = some bind

omit [DecidableEq Client] [DecidableEq Token] [DecidableEq Ws] in
/-- The last bind of an agent after one more bind. -/
theorem latestBind_append (binds : List (BindRecord Client Agent Token Ws)) (bind : BindRecord Client Agent Token Ws) (a : Agent) :
    latestBind (binds ++ [bind]) a = if bind.agentId = a then some bind else latestBind binds a := by
  unfold latestBind
  by_cases h : bind.agentId = a <;> simp [List.filter_append, h]

omit [DecidableEq Token] [DecidableEq Ws] in
/-- Agents that are nowhere need no bind. -/
theorem Sound.of_subset {s : ConnectionLog Client Agent Token Ws} {connections : Connections Client Agent Token Ws}
    {place : Agent → Option (BindRecord Client Agent Token Ws)} {p : Agent → Prop} [DecidablePred p]
    (hlatest : ∀ a bind, place a = some bind → latestBind s.binds a = some bind)
    (h : Represents connections fun a => if p a then none else place a) : Sound { s with connections := connections } := by
  refine ⟨_, h, fun a bind hplace => hlatest a bind ?_⟩
  split at hplace
  · cases hplace
  · exact hplace

omit [DecidableEq Token] in
/-- A step that keeps the bindings keeps the invariant. -/
theorem sound_step {s s' : ConnectionLog Client Agent Token Ws} {op : ConnectionOp Client Agent Token Ws} (h : Sound s)
    (hkeeps : KeepsBindings s op) (hstep : step s op = some s') : Sound s' := by
  obtain ⟨place, hplace, hlatest⟩ := h
  cases op with
  | setClientConnection c ws =>
    obtain rfl := Option.some.inj hstep
    obtain ⟨ids, hids⟩ := represents_setClientConnection hplace hkeeps
    exact Sound.of_subset hlatest hids
  | bindAgentToClient c a token =>
    obtain ⟨entry, hentry, rfl⟩ := Option.map_eq_some_iff.mp hstep
    refine ⟨_, represents_bind hplace hentry a token, fun a' bind hbind => ?_⟩
    rw [latestBind_append]
    by_cases ha : a' = a
    · subst ha
      rw [Function.update_self] at hbind
      rw [if_pos rfl]
      exact hbind
    · rw [Function.update_of_ne ha] at hbind
      rw [if_neg (Ne.symm ha)]
      exact hlatest a' bind hbind
  | unbindAgentFromClient a expected =>
    obtain rfl := Option.some.inj hstep
    exact Sound.of_subset hlatest (represents_unbind hplace a expected)
  | removeClientConnection c ws =>
    obtain rfl := Option.some.inj hstep
    unfold removeClientConnection
    cases hentry : s.connections.clientConnections.lookup c with
    | none => exact ⟨place, hplace, hlatest⟩
    | some entry =>
      by_cases hws : entry.ws ≠ ws
      · simp only [if_pos hws]
        exact ⟨place, hplace, hlatest⟩
      · simp only [if_neg hws]
        exact Sound.of_subset hlatest (represents_deleteClient hplace hentry)
  | forceDisconnect a reason expected =>
    obtain rfl := Option.some.inj hstep
    unfold forceDisconnect
    by_cases hunexpected : unexpected (s.connections.agentToClient.lookup a) expected = true
    · simp only [if_pos hunexpected]
      exact ⟨place, hplace, hlatest⟩
    · simp only [if_neg hunexpected]
      cases hclient : s.connections.agentToClient.lookup a with
      | none =>
        -- An agent without a client has no socket of its own to close.
        have hactive : s.connections.activeConnections.lookup a = none := by
          have hnone := (hplace a).client
          rw [hclient] at hnone
          rw [(hplace a).active, Option.map_eq_none_iff.mp hnone.symm, Option.map_none]
        simp only [hactive]
        exact ⟨place, hplace, hlatest⟩
      | some c =>
        dsimp only
        rw [notifyClient_eq]
        exact Sound.of_subset hlatest (represents_unbind (represents_sockets hplace _) a (some c))
  | forceDisconnectClient c =>
    obtain rfl := Option.some.inj hstep
    unfold forceDisconnectClient
    cases hentry : s.connections.clientConnections.lookup c with
    | none => exact ⟨place, hplace, hlatest⟩
    | some entry =>
      dsimp only
      rw [close_eq]
      exact Sound.of_subset hlatest (represents_deleteClient (represents_sockets hplace _) hentry)
  | socketAdvances ws =>
    obtain rfl := Option.some.inj hstep
    exact ⟨place, represents_sockets hplace _, hlatest⟩

/-! ## What the invariant says -/

omit [DecidableEq Ws] in
/-- A token validates when the session of the agent is the one asked for, and the socket of its client is open. -/
theorem validate_iff {s : Connections Client Agent Token Ws} {a : Agent} {c : Client} {token : Token}
    (h : validateAgentRuntimeSession s a c token = true) :
    s.agentRuntimeSessions.lookup a = some ⟨c, token⟩ ∧ (s.clientConnections.lookup c).isSome = true := by
  simp only [validateAgentRuntimeSession, Bool.and_eq_true, decide_eq_true_eq] at h
  obtain ⟨⟨clientId, token'⟩, hsession, hc⟩ := Option.map_eq_some_iff.mp h.1
  obtain rfl : clientId = c := hc
  obtain rfl : token' = token := by simpa [hsession] using h.2
  unfold getAgentRuntimeSession at hsession
  split at hsession
  · cases hsession
  · next binding hlookup =>
    split at hsession
    · cases hsession
    · next entry hentry =>
      split at hsession
      · cases hsession
      · obtain rfl := Option.some.inj hsession
        exact ⟨hlookup, by rw [hentry]; rfl⟩

omit [DecidableEq Client] [DecidableEq Token] [DecidableEq Ws] in
/-- The last bind of an agent is a bind of the agent. -/
theorem mem_of_latestBind {binds : List (BindRecord Client Agent Token Ws)} {a : Agent} {bind : BindRecord Client Agent Token Ws}
    (h : latestBind binds a = some bind) : bind ∈ binds ∧ bind.agentId = a := by
  have hmem := List.mem_filter.mp (List.mem_of_getLast? h)
  exact ⟨hmem.1, of_decide_eq_true hmem.2⟩

omit [DecidableEq Ws] in
/-- Where the maps say where each agent is, the bindings are consistent. -/
theorem Sound.consistent {s : ConnectionLog Client Agent Token Ws} (h : Sound s) : BindingsConsistent s := by
  obtain ⟨place, hplace, hlatest⟩ := h
  have hseat : ∀ {c entry a}, s.connections.clientConnections.lookup c = some entry → a ∈ entry.agentIds →
      ∃ bind, place a = some bind ∧ bind.clientId = c ∧ bind.ws = entry.ws := by
    intro c entry a hentry ha
    obtain ⟨bind, hbind, heq⟩ := Option.map_eq_some_iff.mp (((hplace a).seated c entry.ws).mp ⟨entry, hentry, rfl, ha⟩)
    exact ⟨bind, hbind, Prod.mk.inj heq⟩
  have hlatestBind : ∀ a c token, validateAgentRuntimeSession s.connections a c token = true →
      ∃ bind, latestBind s.binds a = some bind ∧ bind.clientId = c ∧ bind.token = token ∧
        registeredSocket s.connections c = some bind.ws := by
    intro a c token hvalid
    have hsession := (validate_iff hvalid).1
    rw [(hplace a).session] at hsession
    obtain ⟨bind, hbind, heq⟩ := Option.map_eq_some_iff.mp hsession
    obtain ⟨rfl, rfl⟩ := AgentRuntimeSessionBinding.mk.inj heq
    obtain ⟨entry, hentry, hws, _⟩ := ((hplace a).seated bind.clientId bind.ws).mpr (by rw [hbind]; rfl)
    exact ⟨bind, hlatest a bind hbind, rfl, rfl, by rw [registeredSocket, hentry, Option.map_some, hws]⟩
  refine ⟨fun a c => ⟨fun hc => ?_, ?_⟩, fun c entry a hentry ha => ?_, fun c entry a hentry ha => ?_, fun a hnone => ?_,
    hlatestBind, ?_⟩
  · rw [(hplace a).client] at hc
    obtain ⟨bind, hbind, rfl⟩ := Option.map_eq_some_iff.mp hc
    obtain ⟨entry, hentry, _, ha⟩ := ((hplace a).seated bind.clientId bind.ws).mpr (by rw [hbind]; rfl)
    exact ⟨entry, hentry, ha⟩
  · rintro ⟨entry, hentry, ha⟩
    obtain ⟨bind, hbind, rfl, _⟩ := hseat hentry ha
    rw [(hplace a).client, hbind, Option.map_some]
  · obtain ⟨bind, hbind, _, hws⟩ := hseat hentry ha
    rw [(hplace a).active, hbind, Option.map_some, hws]
  · obtain ⟨bind, hbind, hc, _⟩ := hseat hentry ha
    rw [(hplace a).session, hbind, Option.map_some, Option.map_some, hc]
  · have hplaceNone : place a = none := by
      cases hbind : place a with
      | none => rfl
      | some bind =>
        obtain ⟨entry, hentry, _, ha⟩ := ((hplace a).seated bind.clientId bind.ws).mpr (by rw [hbind]; rfl)
        exact absurd ha (hnone bind.clientId entry hentry)
    rw [(hplace a).active, (hplace a).session, hplaceNone]
    exact ⟨rfl, rfl⟩
  · intro bind _ hfresh a c hvalid
    obtain ⟨last, hlast, hc, htoken, hregistered⟩ := hlatestBind a c bind.token hvalid
    obtain ⟨hmem, ha⟩ := mem_of_latestBind hlast
    obtain rfl := hfresh last hmem htoken
    exact ⟨ha.symm, hc.symm, hc ▸ hregistered⟩

end ConnectionBindingsAux

open ConnectionBindingsAux

/-! ## The result -/

/-- In every run that never registers a client over an entry with agents whose socket is the same or no longer open, the bindings are
consistent. -/
theorem connection_bindings_consistent :
    AlwaysConsistent (Guarded KeepsBindings (ofPartial fun s : ConnectionLog Client Agent Token Ws => step s)) := by
  intro ops s h
  have hsound : Sound s := by
    refine h.invariant (fun s op s' hs hstep => sound_step hs hstep.1 hstep.2) ⟨fun _ => none, fun a => ?_, by simp⟩
    exact at_none rfl rfl rfl fun c ws hseat => by simp [Seated, init] at hseat
  exact hsound.consistent

/-- A registration outside the condition leaves agents bound that are in no entry. -/
theorem setClientConnection_strands {s s' : ConnectionLog Client Agent Token Ws} (h : BindingsConsistent s)
    {clientId : Client} {ws : Ws}
    (hkeeps : ¬ KeepsBindings s (.setClientConnection clientId ws)) (hstep : step s (.setClientConnection clientId ws) = some s') :
    ¬ BindingsConsistent s' := by
  obtain rfl := Option.some.inj hstep
  obtain ⟨entry, hentry, hne⟩ : ∃ entry, s.connections.clientConnections.lookup clientId = some entry ∧
      ¬ (entry.agentIds = [] ∨ (entry.ws ≠ ws ∧ (s.connections.sockets entry.ws).readyState = .connected)) := by
    simpa [KeepsBindings] using hkeeps
  obtain ⟨hagents, hclean⟩ := not_or.mp hne
  obtain ⟨a, ha⟩ := List.exists_mem_of_ne_nil _ hagents
  intro hconsistent
  have hmapped : (setClientConnection s.connections clientId ws).agentToClient.lookup a = some clientId := by
    simp only [setClientConnection, hentry, if_neg hclean]
    exact (h.mapped a clientId).mpr ⟨entry, hentry, ha⟩
  obtain ⟨entry', hentry', ha'⟩ := (hconsistent.mapped a clientId).mp hmapped
  simp only [setClientConnection, AList.lookup_insert, Option.some.injEq] at hentry'
  subst hentry'
  exact absurd ha' (by simp)

namespace ConnectionBindingsExample

/-- A client reconnects while its old socket is closing, before the close has been handled. -/
def reconnected : List (ConnectionOp Nat Nat Nat Nat) :=
  [.setClientConnection 0 1, .bindAgentToClient 0 7 42, .socketAdvances 1, .setClientConnection 0 2]

end ConnectionBindingsExample

open ConnectionBindingsExample in
/-- The token of the old socket validates on the new one, whose client has no agents. -/
theorem connection_bindings_stranded :
    ¬ AlwaysConsistent (ofPartial fun s : ConnectionLog Nat Nat Nat Nat => step s) := by
  intro h
  obtain ⟨s, hs, hout⟩ : ∃ s, reconnected.foldlM step (init : ConnectionLog Nat Nat Nat Nat) = some s ∧
      (validateAgentRuntimeSession s.connections 7 0 42 = true ∧ s.binds = [⟨7, 0, 42, 1⟩] ∧
        registeredSocket s.connections 0 = some 2) :=
    ⟨_, rfl, by decide⟩
  obtain ⟨hvalid, hbinds, hregistered⟩ := hout
  have htoken := (h reconnected s (Run.of_foldlM hs)).token ⟨7, 0, 42, 1⟩ (by simp [hbinds]) (by simp [hbinds]) 7 0 hvalid
  exact absurd (hregistered.symm.trans htoken.2.2) (by decide)

end FirstTree

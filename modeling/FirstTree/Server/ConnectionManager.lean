import FirstTree.Lib.AssocList
import Mathlib.Logic.Function.Basic

/-!
# The connection manager

The maps of `connection-manager.ts`: which socket a client is registered with, which agents are bound to it, and the runtime
session of each bound agent. A call runs to its end before the next one. The capabilities of a client and the replies it owes are
left out.
-/

namespace FirstTree

variable {Client Agent Token Ws : Type} [DecidableEq Client] [DecidableEq Agent] [DecidableEq Token] [DecidableEq Ws]

/-- The `readyState` of a socket the server holds: it is past connecting. -/
inductive ReadyState where
  | connected
  | closing
  | closed
  deriving DecidableEq

/-- The frame `agent:force_disconnect`. -/
structure ForceDisconnectFrame (Agent : Type) where
  agentId : Agent
  reason : Option String

/-- What the code reads of a socket and does to it: its state, the frames sent, and the code and reason it was closed with. -/
structure Socket (Agent : Type) where
  readyState : ReadyState
  sent : List (ForceDisconnectFrame Agent)
  closedWith : Option (Nat × String)

/-- An `AgentRuntimeSessionBinding`. -/
structure AgentRuntimeSessionBinding (Client Token : Type) where
  clientId : Client
  runtimeSessionToken : Token
  deriving DecidableEq

/-- A `ClientEntry`: the socket and, in the order they were added, the agents. -/
structure ClientEntry (Agent Ws : Type) where
  ws : Ws
  agentIds : List Agent

/-- The maps of the module and the sockets they refer to. -/
structure Connections (Client Agent Token Ws : Type) where
  activeConnections : AList fun _ : Agent => Ws
  agentRuntimeSessions : AList fun _ : Agent => AgentRuntimeSessionBinding Client Token
  clientConnections : AList fun _ : Client => ClientEntry Agent Ws
  agentToClient : AList fun _ : Agent => Client
  sockets : Ws → Socket Agent

namespace ConnectionManager

/-- `WS_CLOSE_ALREADY_CONNECTED`. -/
def wsCloseAlreadyConnected : Nat := 4009

/-! ## Sockets -/

/-- The socket's `send`. -/
def send (s : Connections Client Agent Token Ws) (ws : Ws) (frame : ForceDisconnectFrame Agent) : Connections Client Agent Token Ws :=
  { s with sockets := Function.update s.sockets ws { s.sockets ws with sent := (s.sockets ws).sent ++ [frame] } }

/-- The socket's `close`: an open socket is closing from then on. -/
def close (s : Connections Client Agent Token Ws) (ws : Ws) (code : Nat) (reason : String) : Connections Client Agent Token Ws :=
  if (s.sockets ws).readyState = .connected then
    { s with sockets := Function.update s.sockets ws { s.sockets ws with readyState := .closing, closedWith := some (code, reason) } }
  else s

/-- The state of a socket after its own: open, closing, closed. -/
def nextState : ReadyState → ReadyState
  | .connected => .closing
  | .closing => .closed
  | .closed => .closed

/-- A socket moves on. -/
def socketAdvances (s : Connections Client Agent Token Ws) (ws : Ws) : Connections Client Agent Token Ws :=
  { s with sockets := Function.update s.sockets ws { s.sockets ws with readyState := nextState (s.sockets ws).readyState } }

/-! ## Agents and clients -/

/-- The loop that deletes the bindings of the agents of an entry. -/
def deleteBindings (s : Connections Client Agent Token Ws) (agentIds : List Agent) : Connections Client Agent Token Ws :=
  { s with
    agentToClient := AssocList.filterKeys (fun agentId => !decide (agentId ∈ agentIds)) s.agentToClient
    agentRuntimeSessions := AssocList.filterKeys (fun agentId => !decide (agentId ∈ agentIds)) s.agentRuntimeSessions
    activeConnections := AssocList.filterKeys (fun agentId => !decide (agentId ∈ agentIds)) s.activeConnections }

/-- `entry.agentIds.delete`, on the entry of a client when it has one. -/
def removeAgentId (s : Connections Client Agent Token Ws) (clientId : Client) (agentId : Agent) : Connections Client Agent Token Ws :=
  match s.clientConnections.lookup clientId with
  | some entry =>
    { s with
      clientConnections := s.clientConnections.insert clientId
        { entry with agentIds := entry.agentIds.filter fun a => !decide (a = agentId) } }
  | none => s

/-- `setClientConnection`. -/
def setClientConnection (s : Connections Client Agent Token Ws) (clientId : Client) (ws : Ws) : Connections Client Agent Token Ws :=
  let cleaned :=
    match s.clientConnections.lookup clientId with
    | some existing =>
      if existing.ws ≠ ws ∧ (s.sockets existing.ws).readyState = ReadyState.connected then
        deleteBindings (close s existing.ws wsCloseAlreadyConnected "Replaced by new connection") existing.agentIds
      else s
    | none => s
  { cleaned with clientConnections := cleaned.clientConnections.insert clientId ⟨ws, []⟩ }

/-- An agent that was bound elsewhere leaves the entry of its previous client. -/
def leavePrevClient (s : Connections Client Agent Token Ws) (clientId : Client) (agentId : Agent) :
    Connections Client Agent Token Ws :=
  match s.agentToClient.lookup agentId with
  | some prevClientId => if prevClientId ≠ clientId then removeAgentId s prevClientId agentId else s
  | none => s

/-- `entry.agentIds.add`, with the agent's active connection, on the entry of a client when it has one. -/
def addAgentId (s : Connections Client Agent Token Ws) (clientId : Client) (agentId : Agent) : Connections Client Agent Token Ws :=
  match s.clientConnections.lookup clientId with
  | some entry =>
    { s with
      clientConnections := s.clientConnections.insert clientId
        { entry with agentIds := if agentId ∈ entry.agentIds then entry.agentIds else entry.agentIds ++ [agentId] }
      activeConnections := s.activeConnections.insert agentId entry.ws }
  | none => s

/-- `bindAgentToClient`, with the token it is given or mints. -/
def bindAgentToClient (s : Connections Client Agent Token Ws) (clientId : Client) (agentId : Agent) (runtimeSessionToken : Token) :
    Token × Connections Client Agent Token Ws :=
  let added := addAgentId (leavePrevClient s clientId agentId) clientId agentId
  (runtimeSessionToken,
    { added with
      agentToClient := added.agentToClient.insert agentId clientId
      agentRuntimeSessions := added.agentRuntimeSessions.insert agentId ⟨clientId, runtimeSessionToken⟩ })

/-- `clientId !== expectedClientId`, when one is expected. -/
def unexpected (clientId expectedClientId : Option Client) : Bool :=
  expectedClientId.isSome && !decide (clientId = expectedClientId)

/-- `unbindAgentFromClient`. -/
def unbindAgentFromClient (s : Connections Client Agent Token Ws) (agentId : Agent) (expectedClientId : Option Client) :
    Bool × Connections Client Agent Token Ws :=
  let clientId := s.agentToClient.lookup agentId
  if unexpected clientId expectedClientId then (false, s)
  else
    let left :=
      match clientId with
      | some clientId =>
        let removed := removeAgentId s clientId agentId
        { removed with agentToClient := removed.agentToClient.erase agentId }
      | none => s
    (clientId.isSome,
      { left with
        activeConnections := left.activeConnections.erase agentId
        agentRuntimeSessions := left.agentRuntimeSessions.erase agentId })

/-- The frame to the client of an agent that is being disconnected, when its socket is open. -/
def notifyClient (s : Connections Client Agent Token Ws) (clientId : Client) (agentId : Agent) (reason : Option String) :
    Connections Client Agent Token Ws :=
  match s.clientConnections.lookup clientId with
  | some entry =>
    if (s.sockets entry.ws).readyState = .connected
      then send s entry.ws ⟨agentId, reason.filter fun text => !decide (text = "")⟩ else s
  | none => s

/-- `forceDisconnect`. -/
def forceDisconnect (s : Connections Client Agent Token Ws) (agentId : Agent) (reason : Option String)
    (expectedClientId : Option Client) : Bool × Connections Client Agent Token Ws :=
  let clientId := s.agentToClient.lookup agentId
  if unexpected clientId expectedClientId then (false, s)
  else
    match clientId with
    | some clientId => (true, (unbindAgentFromClient (notifyClient s clientId agentId reason) agentId (some clientId)).2)
    | none =>
      match s.activeConnections.lookup agentId with
      | none => (false, s)
      | some ws =>
        let left := close s ws wsCloseAlreadyConnected "Disconnected by admin"
        (true,
          { left with
            activeConnections := left.activeConnections.erase agentId
            agentRuntimeSessions := left.agentRuntimeSessions.erase agentId })

/-- The deletions of a client whose connection is gone. -/
def deleteClient (s : Connections Client Agent Token Ws) (clientId : Client) (agentIds : List Agent) :
    Connections Client Agent Token Ws :=
  let left := deleteBindings s agentIds
  { left with clientConnections := left.clientConnections.erase clientId }

/-- `removeClientConnection`. -/
def removeClientConnection (s : Connections Client Agent Token Ws) (clientId : Client) (ws : Ws) :
    List Agent × Connections Client Agent Token Ws :=
  match s.clientConnections.lookup clientId with
  | some entry => if entry.ws ≠ ws then ([], s) else (entry.agentIds, deleteClient s clientId entry.agentIds)
  | none => ([], s)

/-- `forceDisconnectClient`. -/
def forceDisconnectClient (s : Connections Client Agent Token Ws) (clientId : Client) :
    List Agent × Connections Client Agent Token Ws :=
  match s.clientConnections.lookup clientId with
  | some entry =>
    (entry.agentIds, deleteClient (close s entry.ws wsCloseAlreadyConnected "Client disconnected by admin") clientId entry.agentIds)
  | none => ([], s)

/-! ## Runtime sessions -/

/-- `getAgentRuntimeSession`. -/
def getAgentRuntimeSession (s : Connections Client Agent Token Ws) (agentId : Agent) :
    Option (AgentRuntimeSessionBinding Client Token) :=
  match s.agentRuntimeSessions.lookup agentId with
  | none => none
  | some binding =>
    match s.clientConnections.lookup binding.clientId with
    | none => none
    | some entry => if (s.sockets entry.ws).readyState ≠ .connected then none else some binding

/-- `validateAgentRuntimeSession`. -/
def validateAgentRuntimeSession (s : Connections Client Agent Token Ws) (agentId : Agent) (clientId : Client) (token : Token) :
    Bool :=
  decide ((getAgentRuntimeSession s agentId).map (·.clientId) = some clientId) &&
    decide ((getAgentRuntimeSession s agentId).map (·.runtimeSessionToken) = some token)

end ConnectionManager

/-! ## Sequences of calls -/

/-- What a call of `bindAgentToClient` was about: the socket is the one the client was registered with. -/
structure BindRecord (Client Agent Token Ws : Type) where
  agentId : Agent
  clientId : Client
  token : Token
  ws : Ws
  deriving DecidableEq

/-- The maps and the binds so far, in their order. -/
structure ConnectionLog (Client Agent Token Ws : Type) where
  connections : Connections Client Agent Token Ws
  binds : List (BindRecord Client Agent Token Ws)

/-- A call, or a socket moving on between two calls. -/
inductive ConnectionOp (Client Agent Token Ws : Type) where
  | setClientConnection (clientId : Client) (ws : Ws)
  | bindAgentToClient (clientId : Client) (agentId : Agent) (token : Token)
  | unbindAgentFromClient (agentId : Agent) (expectedClientId : Option Client)
  | removeClientConnection (clientId : Client) (ws : Ws)
  | forceDisconnect (agentId : Agent) (reason : Option String) (expectedClientId : Option Client)
  | forceDisconnectClient (clientId : Client)
  | socketAdvances (ws : Ws)

namespace ConnectionManager

/-- Nothing is registered, and every socket is open. -/
def init : ConnectionLog Client Agent Token Ws :=
  ⟨⟨∅, ∅, ∅, ∅, fun _ => ⟨.connected, [], none⟩⟩, []⟩

/-- One call. An agent is bound to a registered client only. -/
def step (s : ConnectionLog Client Agent Token Ws) : ConnectionOp Client Agent Token Ws → Option (ConnectionLog Client Agent Token Ws)
  | .setClientConnection clientId ws => some { s with connections := setClientConnection s.connections clientId ws }
  | .bindAgentToClient clientId agentId token =>
    (s.connections.clientConnections.lookup clientId).map fun entry =>
      let bound := bindAgentToClient s.connections clientId agentId token
      ⟨bound.2, s.binds ++ [⟨agentId, clientId, bound.1, entry.ws⟩]⟩
  | .unbindAgentFromClient agentId expectedClientId =>
    some { s with connections := (unbindAgentFromClient s.connections agentId expectedClientId).2 }
  | .removeClientConnection clientId ws => some { s with connections := (removeClientConnection s.connections clientId ws).2 }
  | .forceDisconnect agentId reason expectedClientId =>
    some { s with connections := (forceDisconnect s.connections agentId reason expectedClientId).2 }
  | .forceDisconnectClient clientId => some { s with connections := (forceDisconnectClient s.connections clientId).2 }
  | .socketAdvances ws => some { s with connections := socketAdvances s.connections ws }

end ConnectionManager

end FirstTree

import FirstTree.Client.ClientSwitch
import FirstTree.Lemmas.ClientSwitch
import FirstTree.Lib.DurablePrograms
import FirstTree.Lib.JournaledMoves

/-!
# The programs of a login keep the clients

A specification of each program of a login: every file-system step leaves the files of the clients on their way to a layout that
the clients may have come to, and a switch whose journal has its moves ends with the new client active.
-/

namespace FirstTree

open Durable JournaledMoves ClientSwitch

variable {τ : Type}

/-- What a pending journal says: its moves lead to the layout, whose active client is the one that it names. -/
structure Pending (journal : SwitchJournal) (files f : SwitchFiles τ) : Prop where
  underWay : UnderWay (pendingMoves (journal.moves.getD [])) f files
  grouped : Grouped (journal.moves.getD [])
  held : ClientHeld journal.from.clientId f
  valid : (yamlOf (f (.active .clientYaml))).clientId.all isClientId = true
  nonempty : journal.moves ≠ some []
  named : journal.moves ≠ none → ∀ id, journal.to.clientId = some id → (yamlOf (f (.active .clientYaml))).clientId = some id

/-- The clients that an index names are held. -/
structure IndexKnows (index : SwitchIndex) (f : SwitchFiles τ) : Prop where
  defaults : ∀ key id, index.accountDefaults key = some id → ClientHeld id f
  listed : ∀ id entry, index.clients id = some entry → ClientHeld id f

/-- What holds of a layout beside the files: its clients are apart, the index names clients that are held, and no id is new. -/
structure Indexed (s : HomeStore τ) (f : SwitchFiles τ) : Prop where
  separate : Separate f
  known : IndexKnows s.index f
  generated : ∀ id, ClientOccurs id f → id ∈ s.generated

/-- The user that is signed in is the one that the active client is recorded for. -/
def SignedInOwner (s : HomeStore τ) : Prop :=
  ∀ c owner, s.credentials = some c → readActiveClientOwner s = some owner → c.ownerSub = some owner.userId

/-- The files are those of a layout, or a pending journal leads them there; until it has moves, the signed-in user owns the client. -/
structure ClientsPlaced (s : HomeStore τ) (f : SwitchFiles τ) : Prop extends Indexed s f where
  signedIn : (∀ journal, s.journal = some journal → journal.phase = .complete ∨ journal.moves = none) → SignedInOwner s
  settled : (∀ journal, s.journal = some journal → journal.phase = .complete) → s.files = f
  pending : ∀ journal, s.journal = some journal → journal.phase ≠ .complete → Pending journal s.files f

/-- The files are those of a layout that the clients may have come to by some operations, or on their way there. -/
def OnTheWay (ops : List (ClientOp τ)) (f₀ : SwitchFiles τ) (s : HomeStore τ) : Prop := ∃ f, ClientSteps ops f₀ f ∧ ClientsPlaced s f

/-- What an operation leaves in between: files on their way, or a `client.yaml` that is being written. -/
def OnTheWayOrTruncated (ops : List (ClientOp τ)) (f₀ : SwitchFiles τ) (s : HomeStore τ) : Prop :=
  OnTheWay ops f₀ s ∨ isTruncated s = true

/-- A switch to an account is over: the client is active, configured and signed in, and neither the lock nor the journal is left. -/
structure SwitchedTo (r : LoginRequest) (id : String) (f : SwitchFiles τ) (s : HomeStore τ) : Prop extends
    Indexed s (configured r id f) where
  files : s.files = configured r id f
  journal : s.journal = none
  lock : s.lock = false
  credentials : s.credentials = some ⟨some r.userId, r.serverUrl⟩
  active : s.index.activeClientId = some id
  owner : readActiveClientOwner s = some ⟨id, r.userId, r.serverUrl⟩
  clientId : (yamlOf (f (.active .clientYaml))).clientId = some id ∨
    (yamlOf (f (.active .clientYaml))).clientId = none ∧ id = r.newClientId

namespace ClientSwitchAux

variable {f₀ f : SwitchFiles τ} {s t : HomeStore τ} {journal : SwitchJournal} {α : Type} {d : SwitchDirs}
  {crash : HomeStore τ → Prop} {newId : String} {r : LoginRequest}

/-- A program in progress has written its journal, and its client id is one that has been generated. -/
structure Busy (newId : String) (journal : SwitchJournal) (s : HomeStore τ) (f : SwitchFiles τ) : Prop extends Indexed s f where
  issued : newId ∈ s.generated
  written : s.journal = some journal
  phase : journal.phase ≠ .complete
  pending : Pending journal s.files f
  signedIn : journal.moves = none → SignedInOwner s

/-- A store with a pending journal is placed. -/
theorem Busy.placed (h : Busy newId journal s f) : ClientsPlaced s f where
  toIndexed := h.toIndexed
  signedIn hunmoved := h.signedIn ((hunmoved journal h.written).resolve_left h.phase)
  settled hcomplete := absurd (hcomplete journal h.written) h.phase
  pending j hj _ := by
    obtain rfl := Option.some.inj (h.written.symm.trans hj)
    exact h.pending

/-- What a program in progress needs of the files, it has while others are written. -/
theorem Indexed.of_same (h : Indexed s f) (hindex : t.index = s.index) (hgenerated : t.generated = s.generated) : Indexed t f :=
  ⟨h.separate, hindex ▸ h.known, hgenerated ▸ h.generated⟩

/-! ## The moves -/

theorem pendingMoves_append (a b : List SwitchJournalMove) : pendingMoves (a ++ b) = pendingMoves a ++ pendingMoves b := by
  simp [pendingMoves]

theorem pendingMoves_cons (entry : SwitchJournalMove) (rest : List SwitchJournalMove) :
    pendingMoves (entry :: rest) =
      if entry.state = .pending then ⟨entry.source, entry.target, entry.required⟩ :: pendingMoves rest else pendingMoves rest := by
  unfold pendingMoves
  rw [List.filter_cons]
  split <;> split <;> simp_all

/-- A mark keeps the order of the moves. -/
theorem Grouped.mark {before rest : List SwitchJournalMove} {entry : SwitchJournalMove} {state : SwitchMoveState}
    (h : Grouped (before ++ entry :: rest)) : Grouped (before ++ { entry with state := state } :: rest) := by
  obtain ⟨parks, restores, hgroups⟩ := h
  exact ⟨parks, restores, by simpa using hgroups⟩

/-- A mark takes a move off the journal that has just been made. -/
theorem Busy.mark {before rest : List SwitchJournalMove} {entry : SwitchJournalMove} {state : SwitchMoveState}
    (h : Busy newId journal s f) (hmoves : journal.moves = some (before ++ entry :: rest)) (hbefore : pendingMoves before = [])
    (hstate : state ≠ .pending) (hunder : UnderWay (pendingMoves rest) f s.files) :
    Busy newId { journal with moves := some (before ++ { entry with state := state } :: rest) }
      { s with journal := some { journal with moves := some (before ++ { entry with state := state } :: rest) } } f where
  toIndexed := Indexed.of_same h.toIndexed rfl rfl
  issued := h.issued
  written := rfl
  phase := h.phase
  signedIn hnone := by cases hnone
  pending := by
    have hgrouped := h.pending.grouped
    rw [hmoves] at hgrouped
    refine ⟨?_, Grouped.mark hgrouped, h.pending.held, h.pending.valid, by simp, fun _ => h.pending.named (by simp [hmoves])⟩
    show UnderWay (pendingMoves (before ++ { entry with state := state } :: rest)) f s.files
    rwa [pendingMoves_append, hbefore, pendingMoves_cons, if_neg hstate, List.nil_append]

/-- One move is made or found to be made, and marked. -/
theorem meets_executeMove {before rest : List SwitchJournalMove} {entry : SwitchJournalMove}
    {post : Except SwitchError (SwitchJournal × SwitchMoveState) → HomeStore τ → Prop} (hbusy : Busy newId journal s f)
    (hmoves : journal.moves = some (before ++ entry :: rest)) (hbefore : pendingMoves before = []) (hpending : entry.state = .pending)
    (hcrash : ∀ journal t, Busy newId journal t f → crash t)
    (hpost : ∀ state t, state ≠ .pending →
      Busy newId { journal with moves := some (before ++ { entry with state := state } :: rest) } t f →
        post (.ok ({ journal with moves := some (before ++ { entry with state := state } :: rest) }, state)) t) :
    (executeMove d journal before entry rest).Meets crash post s := by
  have hunder := hbusy.pending.underWay
  rw [hmoves, Option.getD_some, pendingMoves_append, hbefore, List.nil_append, pendingMoves_cons, if_pos hpending] at hunder
  simp only [executeMove, Program.meets_read_bind]
  have hmark : ∀ state t, state ≠ .pending → Busy newId journal t f → UnderWay (pendingMoves rest) f t.files →
      crash { t with journal := some { journal with moves := some (before ++ { entry with state := state } :: rest) } } ∧
        post (.ok ({ journal with moves := some (before ++ { entry with state := state } :: rest) }, state))
          { t with journal := some { journal with moves := some (before ++ { entry with state := state } :: rest) } } := by
    intro state t hstate hbusy hrest
    have hmarked := hbusy.mark hmoves hbefore hstate hrest
    exact ⟨hcrash _ _ hmarked, hpost state _ hstate hmarked⟩
  rcases hunder.cases with ⟨hsource, htarget, hmid, hrest⟩ | ⟨hsource, hrequired, hrest⟩
  · -- The rename is made here; the mark follows it.
    rw [hsource, htarget]
    have hrenamed : Busy newId journal { s with files := rename entry.source entry.target s.files } f := by
      refine ⟨Indexed.of_same hbusy.toIndexed rfl rfl, hbusy.issued, hbusy.written, hbusy.phase, ⟨?_, hbusy.pending.grouped,
        hbusy.pending.held, hbusy.pending.valid, hbusy.pending.nonempty, hbusy.pending.named⟩, by simp [hmoves]⟩
      rw [hmoves, Option.getD_some, pendingMoves_append, hbefore, List.nil_append, pendingMoves_cons, if_pos hpending]
      exact hmid
    exact ⟨hcrash _ _ hrenamed, hmark .done _ (by simp) hrenamed hrest⟩
  · rw [hsource]
    cases htarget : s.files entry.target with
    | some file => exact hmark .done s (by simp) hbusy hrest
    | none =>
      have hoptional : entry.required = false := by
        by_contra hreq
        have hpresent := hrequired (by simpa using hreq)
        rw [show s.files entry.target = none from htarget] at hpresent
        cases hpresent
      rw [hoptional]
      exact hmark .absent s (by simp) hbusy hrest

/-- The loop passes the moves that are of another group, or that are marked. -/
theorem executeMovesFrom_pass {group : SwitchMoveGroup} {before passed rest : List SwitchJournalMove}
    (hpassed : ∀ entry ∈ passed, entry.group ≠ group ∨ entry.state ≠ .pending) :
    (executeMovesFrom d group journal before (passed ++ rest) : SwitchProgram τ SwitchJournal) =
      executeMovesFrom d group journal (before ++ passed) rest := by
  induction passed generalizing before with
  | nil => simp
  | cons entry passed ih =>
    rw [List.cons_append, executeMovesFrom, if_pos (hpassed entry List.mem_cons_self),
      ih fun e he => hpassed e (List.mem_cons_of_mem entry he), List.append_assoc, List.singleton_append]

/-- The loop makes the moves of its group, which come before those of the other. -/
theorem meets_executeMovesFrom {group : SwitchMoveGroup} {post : Except SwitchError SwitchJournal → HomeStore τ → Prop}
    {before todo rest : List SwitchJournalMove} (hbusy : Busy newId journal s f)
    (hmoves : journal.moves = some (before ++ (todo ++ rest)))
    (hbefore : pendingMoves before = []) (htodo : ∀ entry ∈ todo, entry.group = group) (hrest : ∀ entry ∈ rest, entry.group ≠ group)
    (hcrash : ∀ journal t, Busy newId journal t f → crash t)
    (hpost : ∀ finished t, pendingMoves finished = [] → Busy newId { journal with moves := some (finished ++ rest) } t f →
      post (.ok { journal with moves := some (finished ++ rest) }) t) :
    (executeMovesFrom d group journal before (todo ++ rest)).Meets crash post s := by
  induction todo generalizing journal before s with
  | nil =>
    have hpass : (executeMovesFrom d group journal before (rest ++ []) : SwitchProgram τ SwitchJournal) = pure journal :=
      executeMovesFrom_pass fun entry hentry => .inl (hrest entry hentry)
    rw [List.append_nil] at hpass
    rw [List.nil_append, hpass]
    have hsame : { journal with moves := some (before ++ rest) } = journal := by
      obtain ⟨phase, «from», «to», moves⟩ := journal
      simp only at hmoves
      simp [hmoves]
    have hend := hpost before s hbefore
    rw [hsame] at hend
    exact hend hbusy
  | cons entry todo ih =>
    have htodo' : ∀ e ∈ todo, e.group = group := fun e he => htodo e (List.mem_cons_of_mem entry he)
    by_cases hpending : entry.state = .pending
    · rw [List.cons_append, executeMovesFrom, if_neg (by simp [htodo entry List.mem_cons_self, hpending]), Program.meets_bind]
      refine meets_executeMove hbusy hmoves hbefore hpending hcrash fun state t hstate hbusy' => ?_
      refine ih hbusy' (by simp) ?_ htodo' hpost
      rw [pendingMoves_append, hbefore, pendingMoves_cons, if_neg hstate]
      rfl
    · rw [List.cons_append, executeMovesFrom, if_pos (.inr hpending)]
      refine ih hbusy (by simp [hmoves]) ?_ htodo' hpost
      rw [pendingMoves_append, hbefore, pendingMoves_cons, if_neg hpending]
      rfl

/-- A journal's moves, by their groups. -/
theorem Grouped.split {moves : List SwitchJournalMove} (h : Grouped moves) :
    ∃ parks restores, moves = parks ++ restores ∧ (∀ entry ∈ parks, entry.group = .park) ∧ ∀ entry ∈ restores,
      entry.group = .restore := by
  obtain ⟨n, m, hgroups⟩ := h
  obtain ⟨parks, restores, hmoves, hparks, hrestores⟩ := List.map_eq_append_iff.mp hgroups
  refine ⟨parks, restores, hmoves, fun entry hentry => ?_, fun entry hentry => ?_⟩
  · exact List.eq_of_mem_replicate (hparks ▸ List.mem_map_of_mem hentry)
  · exact List.eq_of_mem_replicate (hrestores ▸ List.mem_map_of_mem hentry)

/-- A move without a mark is pending. -/
theorem not_pending_of_pendingMoves {moves : List SwitchJournalMove} (h : pendingMoves moves = []) {entry : SwitchJournalMove}
    (hentry : entry ∈ moves) : entry.state ≠ .pending := by
  intro hpending
  have hnil := List.map_eq_nil_iff.mp h
  have hmem : entry ∈ moves.filter fun e => decide (e.state = .pending) := List.mem_filter.mpr ⟨hentry, decide_eq_true hpending⟩
  rw [hnil] at hmem
  cases hmem

/-- The moves of the first group are made. -/
theorem meets_park {post : Except SwitchError SwitchJournal → HomeStore τ → Prop} {moves : List SwitchJournalMove}
    (hbusy : Busy newId journal s f) (hmoves : journal.moves = some moves) (hcrash : ∀ journal t, Busy newId journal t f → crash t)
    (hpost : ∀ finished restores t, pendingMoves finished = [] → (∀ entry ∈ restores, entry.group = .restore) →
      Busy newId { journal with moves := some (finished ++ restores) } t f →
        post (.ok { journal with moves := some (finished ++ restores) }) t) :
    (executeSwitchMoves d journal .park).Meets crash post s := by
  have hgrouped := hbusy.pending.grouped
  rw [hmoves] at hgrouped
  obtain ⟨parks, restores, hsplit, hparks, hrestores⟩ := Grouped.split hgrouped
  rw [executeSwitchMoves, hmoves]
  rw [Option.getD_some] at hsplit ⊢
  rw [hsplit]
  refine meets_executeMovesFrom hbusy (by rw [hmoves, hsplit, List.nil_append]) rfl hparks (fun entry hentry => ?_) hcrash
    fun finished t hfinished hbusy' => hpost finished restores t hfinished hrestores hbusy'
  rw [hrestores entry hentry]
  decide

/-- The moves of the second group are made when those of the first are. -/
theorem meets_restore {post : Except SwitchError SwitchJournal → HomeStore τ → Prop} {finished restores : List SwitchJournalMove}
    (hbusy : Busy newId journal s f) (hmoves : journal.moves = some (finished ++ restores)) (hfinished : pendingMoves finished = [])
    (hrestores : ∀ entry ∈ restores, entry.group = .restore) (hcrash : ∀ journal t, Busy newId journal t f → crash t)
    (hpost : ∀ moves t, pendingMoves moves = [] → Busy newId { journal with moves := some moves } t f →
      post (.ok { journal with moves := some moves }) t) :
    (executeSwitchMoves d journal .restore).Meets crash post s := by
  rw [executeSwitchMoves, hmoves, Option.getD_some,
    executeMovesFrom_pass fun entry hentry =>
      .inr (not_pending_of_pendingMoves hfinished hentry), List.nil_append, ← List.append_nil restores]
  refine meets_executeMovesFrom hbusy (by simpa using hmoves) hfinished hrestores (by simp) hcrash fun moves t hmade hbusy' => ?_
  rw [List.append_nil] at hbusy' ⊢
  exact hpost moves t hmade hbusy'

/-! ## The end of a switch -/

/-- A journal goes to another phase. -/
theorem Busy.update {phase : SwitchPhase} (h : Busy newId journal s f) (hphase : phase ≠ .complete) :
    Busy newId { journal with phase := phase } { s with journal := some { journal with phase := phase } } f :=
  ⟨Indexed.of_same h.toIndexed rfl rfl, h.issued, rfl, hphase,
    ⟨h.pending.underWay, h.pending.grouped, h.pending.held, h.pending.valid, h.pending.nonempty, h.pending.named⟩, h.signedIn⟩

/-- Credentials are written beside a journal with moves. -/
theorem Busy.credentials (h : Busy newId journal s f) (hmoved : journal.moves ≠ none) (credentials : Option SwitchCredentials) :
    Busy newId journal { s with credentials := credentials } f :=
  ⟨Indexed.of_same h.toIndexed rfl rfl, h.issued, h.written, h.phase, h.pending, fun hnone => absurd hnone hmoved⟩

/-- A journal without moves to make has none at all. -/
theorem Busy.moves_eq_none (h : Busy newId journal s f) (hempty : (journal.moves.getD []).isEmpty = true) : journal.moves = none := by
  cases hmoves : journal.moves with
  | none => rfl
  | some moves =>
    rw [hmoves, Option.getD_some, List.isEmpty_iff] at hempty
    exact absurd (hmoves.trans (congrArg some hempty)) h.pending.nonempty

/-- The files have arrived when all moves are marked. -/
theorem Busy.files (h : Busy newId journal s f) (hmade : pendingMoves (journal.moves.getD []) = []) : s.files = f := by
  have hunder := h.pending.underWay
  rw [hmade] at hunder
  exact underWay_nil.mp hunder

/-- The `client.yaml` of a client that is configured. -/
@[simp] theorem yamlOf_configuredWith (yaml : ClientYaml τ) (f : SwitchFiles τ) :
    yamlOf (configuredWith yaml f (.active .clientYaml)) = yaml := by
  rw [configuredWith, Function.update_self, yamlOf]

/-- What a login may replace a `client.yaml` by: the server is its own, and the client id stays, or is the new one it has
generated. -/
structure Configures (r : LoginRequest) (yaml : ClientYaml τ) (s : HomeStore τ) (f : SwitchFiles τ) : Prop where
  rest : yaml.rest = (yamlOf (f (.active .clientYaml))).rest
  server : yaml.serverUrl = some r.serverUrl
  kept : ∀ id, (yamlOf (f (.active .clientYaml))).clientId = some id → yaml.clientId = some id
  new : ∀ id, yaml.clientId = some id →
    (yamlOf (f (.active .clientYaml))).clientId = some id ∨ (id = r.newClientId ∧ ¬ ClientOccurs id f) ∧ id ∈ s.generated

/-- A configuration is a step of the login. -/
theorem Configures.step {before : List (ClientOp τ)} {yaml : ClientYaml τ} (h : Configures r yaml s f)
    (hsteps : ClientSteps (before ++ [.login r]) f₀ f) : ClientSteps (before ++ [.login r]) f₀ (configuredWith yaml f) :=
  hsteps.step (.configure r f yaml h.rest h.server h.kept fun id hid => (h.new id hid).imp_right And.left)

/-- An index knows the clients that stay held. -/
theorem IndexKnows.mono {index : SwitchIndex} {g : SwitchFiles τ} (h : IndexKnows index f) (hheld : ∀ id, ClientHeld id f →
    ClientHeld id g) : IndexKnows index g :=
  ⟨fun key id hkey => hheld id (h.defaults key id hkey), fun id entry hentry => hheld id (h.listed id entry hentry)⟩

/-- A configuration keeps the index in order. -/
theorem Indexed.configure {yaml : ClientYaml τ} (h : Indexed s f) (hyaml : Configures r yaml s f) :
    Indexed { s with files := configuredWith yaml s.files } (configuredWith yaml f) where
  separate := separate_configure h.separate fun id hid => (hyaml.new id hid).imp_right fun hfresh => hfresh.1.2
  known := IndexKnows.mono h.known fun _ => held_configure hyaml.kept
  generated id hoccurs := by
    rcases occurs_of_configure hoccurs with ⟨hid, hvalid⟩ | hbefore
    · rcases hyaml.new id hid with hsame | ⟨_, hgenerated⟩
      · exact h.generated id (.inl (Option.filter_eq_some_iff.mpr ⟨hsame, hvalid⟩))
      · exact hgenerated
    · exact h.generated id hbefore

/-- The client is configured once the files have arrived. -/
theorem Busy.configure {yaml : ClientYaml τ} (h : Busy newId journal s f) (hmade : pendingMoves (journal.moves.getD []) = [])
    (hmoved : journal.moves ≠ none) (hyaml : Configures r yaml s f) (hvalid : yaml.clientId.all isClientId = true) :
    Busy newId journal { s with files := configuredWith yaml s.files } (configuredWith yaml f) where
  toIndexed := Indexed.configure h.toIndexed hyaml
  issued := h.issued
  written := h.written
  phase := h.phase
  signedIn hnone := absurd hnone hmoved
  pending := by
    refine ⟨?_, h.pending.grouped, held_configure hyaml.kept h.pending.held, ?_, h.pending.nonempty, fun hmoves id hid => ?_⟩
    · rw [hmade, underWay_nil]
      show configuredWith yaml s.files = configuredWith yaml f
      rw [h.files hmade]
    · rwa [yamlOf_configuredWith]
    · rw [yamlOf_configuredWith]
      exact hyaml.kept id (h.pending.named hmoves id hid)

/-- No journal is pending: the files are those of the layout. -/
structure ClientsSettled (s : HomeStore τ) (f : SwitchFiles τ) : Prop extends Indexed s f where
  files : s.files = f
  journal : ∀ journal, s.journal = some journal → journal.phase = .complete
  signedIn : SignedInOwner s

/-- A store without a pending journal is placed. -/
theorem ClientsSettled.placed (h : ClientsSettled s f) : ClientsPlaced s f :=
  ⟨h.toIndexed, fun _ => h.signedIn, fun _ => h.files, fun j hj hphase => absurd (h.journal j hj) hphase⟩

/-- A placed store whose journal, if there is one, is complete. -/
theorem ClientsPlaced.toSettled (h : ClientsPlaced s f) (hcomplete : ∀ journal, s.journal = some journal →
    journal.phase = .complete) : ClientsSettled s f :=
  ⟨h.toIndexed, h.settled hcomplete, hcomplete, h.signedIn fun journal hjournal => .inl (hcomplete journal hjournal)⟩

/-- The client is configured when no journal is pending. -/
theorem ClientsSettled.configure {yaml : ClientYaml τ} (h : ClientsSettled s f) (hyaml : Configures r yaml s f)
    (hsigned : SignedInOwner { s with files := configuredWith yaml s.files }) :
    ClientsSettled { s with files := configuredWith yaml s.files } (configuredWith yaml f) :=
  ⟨Indexed.configure h.toIndexed hyaml, by rw [h.files], h.journal, hsigned⟩

/-- A file without a client id may get the new one of the login, when that was generated and does not occur. -/
theorem configures_new {yaml : ClientYaml τ} (hrest : yaml.rest = (yamlOf (f (.active .clientYaml))).rest)
    (hserver : yaml.serverUrl = some r.serverUrl) (hnone : (yamlOf (f (.active .clientYaml))).clientId = none)
    (hfresh : ¬ ClientOccurs r.newClientId f) (hgenerated : r.newClientId ∈ s.generated) (hid : yaml.clientId = some r.newClientId) :
    Configures r yaml s f where
  rest := hrest
  server := hserver
  kept id' hid' := by
    rw [hnone] at hid'
    cases hid'
  new id' hid' := by
    obtain rfl := Option.some.inj (hid.symm.trans hid')
    exact .inr ⟨⟨rfl, hfresh⟩, hgenerated⟩

/-- A file may keep its client id. -/
theorem configures_same {yaml : ClientYaml τ} (hrest : yaml.rest = (yamlOf (f (.active .clientYaml))).rest)
    (hserver : yaml.serverUrl = some r.serverUrl) (hsame : yaml.clientId = (yamlOf (f (.active .clientYaml))).clientId) :
    Configures r yaml s f :=
  ⟨hrest, hserver, fun _ hid => hsame.trans hid, fun _ hid => .inl (hsame.symm.trans hid)⟩

/-- The index after a client is set. -/
theorem IndexKnows.setClient {index : SwitchIndex} {owner : LocalClientOwner} {storage : ClientStorage} (h : IndexKnows index f)
    (hheld : ClientHeld owner.clientId f) : IndexKnows (setClient index owner storage) f where
  defaults key id hkey := by
    by_cases hsame : key = accountKey owner.serverUrl owner.userId
    · subst hsame
      simp only [ClientSwitch.setClient, Function.update_self, Option.some.injEq] at hkey
      exact hkey ▸ hheld
    · simp only [ClientSwitch.setClient, Function.update_of_ne hsame] at hkey
      exact h.defaults key id hkey
  listed id entry hentry := by
    by_cases hsame : id = owner.clientId
    · exact hsame ▸ hheld
    · simp only [ClientSwitch.setClient, Function.update_of_ne hsame] at hentry
      exact h.listed id entry hentry

/-- The other clients of an index that are parked stay known. -/
theorem IndexKnows.parkOthers {index : SwitchIndex} (h : IndexKnows index f) (clientId : String) :
    IndexKnows (parkOthers index clientId) f where
  defaults := h.defaults
  listed id entry hentry := by
    obtain ⟨before, hbefore, _⟩ := Option.map_eq_some_iff.mp hentry
    exact h.listed id before hbefore

/-- The owner of a client that has just been recorded as the active one. -/
theorem readActiveClientOwner_setClient {index : SwitchIndex} {owner : LocalClientOwner}
    (hindex : s.index.clients = (ClientSwitch.setClient index owner .activeRoot).clients)
    (hroot : rootClientId s.files = some owner.clientId) : readActiveClientOwner s = some owner := by
  simp [readActiveClientOwner, hroot, hindex, ClientSwitch.setClient]

/-- The remembered owner depends on the client id of the root and the index alone. -/
theorem readActiveClientOwner_congr (hroot : rootClientId t.files = rootClientId s.files) (hindex : t.index = s.index) :
    readActiveClientOwner t = readActiveClientOwner s := by
  rw [readActiveClientOwner, readActiveClientOwner, hroot, hindex]

/-- A user that is signed in as the remembered owner owns the active client. -/
theorem signedIn_of_owner {id userId serverUrl : String} (hcredentials : s.credentials = some ⟨some userId, serverUrl⟩)
    (howner : readActiveClientOwner s = some ⟨id, userId, serverUrl⟩) : SignedInOwner s := by
  intro c owner hc ho
  obtain rfl := Option.some.inj (hcredentials.symm.trans hc)
  obtain rfl := Option.some.inj (howner.symm.trans ho)
  rfl

/-- A `client.yaml` is truncated and written. -/
theorem meets_writeClientYaml {yaml : ClientYaml τ} {post : Except SwitchError Unit → HomeStore τ → Prop}
    (htruncated : ∀ t, isTruncated t = true → crash t) (hcrash : crash { s with files := configuredWith yaml s.files })
    (hpost : post (.ok ()) { s with files := configuredWith yaml s.files }) : (writeClientYaml yaml).Meets crash post s := by
  rw [writeClientYaml, Program.meets_write_bind, Program.meets_write]
  simp only [Function.update_idem]
  exact ⟨htruncated _ (by simp [isTruncated]), hcrash, hpost⟩

/-- `initConfig` without an id in the environment returns the client id of a valid file, or writes a new one. -/
theorem meets_initConfig {post : Except SwitchError String → HomeStore τ → Prop} {yaml : ClientYaml τ}
    (hyaml : yamlOf (s.files (.active .clientYaml)) = yaml) (htruncated : ∀ t, isTruncated t = true → crash t)
    (hinvalid : ∀ e, ¬ (yaml.serverUrl.isSome ∧ yaml.clientId.all isClientId = true) →
      post (.error e) s)
    (hkept : ∀ id, yaml.clientId = some id → isClientId id = true → post (.ok id) s)
    (hnew : yaml.clientId = none →
      crash { s with files := configuredWith { yaml with clientId := some newId } s.files } ∧
        post (.ok newId) { s with files := configuredWith { yaml with clientId := some newId } s.files }) :
    (initConfig none newId).Meets crash post s := by
  rw [initConfig, Program.meets_read_bind, hyaml]
  by_cases hvalid : yaml.serverUrl.isSome ∧ yaml.clientId.all isClientId = true
  · refine Program.meets_check_bind (fun e he => absurd (he.symm.trans (if_pos hvalid)) (by simp)) fun _ _ => ?_
    cases hclient : yaml.clientId with
    | some id =>
      refine hkept id hclient ?_
      simpa [hclient] using hvalid.2
    | none =>
      rw [Option.filter_none, Option.orElse_eq_orElse, Option.orElse]
      exact Program.meets_bind.mpr (meets_writeClientYaml htruncated (hnew hclient).1 (hnew hclient).2)
  · exact Program.meets_check_bind (fun e _ => hinvalid e hvalid) fun _ hok => absurd (hok.symm.trans (if_neg hvalid)) (by simp)

/-- A root has the client id of the `client.yaml` that is written. -/
theorem rootClientId_configuredWith {yaml : ClientYaml τ} {id : String} (hyaml : yaml.clientId = some id) (hid : isClientId id = true)
    (f : SwitchFiles τ) : rootClientId (configuredWith yaml f) = some id := by
  rw [rootClientId_configure]
  exact Option.filter_eq_some_iff.mpr ⟨hyaml, hid⟩

/-- A journal that is not complete is found by the next login. -/
theorem hasIncompleteClientSwitch_of_journal (hjournal : s.journal = some journal) (hphase : journal.phase ≠ .complete) :
    hasIncompleteClientSwitch s = true := by
  simp [hasIncompleteClientSwitch, hjournal, hphase]

end ClientSwitchAux

end FirstTree

import Mathlib.Data.Fintype.EquivFin
import FirstTree.Lib.Runs
import FirstTree.Server.AgentConfig

/-!
# The writes of an agent's config

The version of the row is its clock: a writer that compares it in its `UPDATE` writes over the row it has read. The commit of a
runtime switch compares nothing, so it may write over a row it has not seen; and the callers of one flush share one version and
one patch, in which a later caller's field replaces an earlier one's.
-/

namespace FirstTree

open Runs Transactions AgentRuntime AgentConfig

variable {Inst Call Rest Skill : Type} [DecidableEq Inst] [DecidableEq Call]

namespace AgentConfig

/-- What a change makes of a payload. -/
def applyChange (schema : PayloadSchema Rest) (payload : ConfigPayload Rest Skill) : ConfigChange → Option (ConfigPayload Rest Skill)
  | .patch patch provider cipher =>
    (parsePayload schema payload).bind fun current => (mergedPayload schema cipher provider current patch).toOption
  | .retag target => retagRuntimeConfigPayload schema payload target
  | .bump => some payload

/-- Each write begins where the one before it ended, raises the version and applies its change to the payload. -/
def Chained (schema : PayloadSchema Rest) (row : ConfigRow Rest Skill) : List (ConfigWrite Call Rest Skill) →
    ConfigRow Rest Skill → Prop
  | [], last => last = row
  | w :: ws, last => w.before = row ∧ row.version < w.after.version ∧ applyChange schema row.payload w.change = some w.after.payload ∧
      Chained schema w.after ws last

/-- Every field of a patch has its value in the payload a write stored, and its environment the merged list. -/
structure Carries (patch : ConfigPatch) (w : ConfigWrite Call Rest Skill) : Prop where
  model : ∀ v, patch.model = some v → w.after.payload.model = v
  env : ∀ env, patch.env = some env → ∃ aggregated provider cipher, w.change = .patch aggregated provider cipher ∧
    w.after.payload.env = mergeEnv cipher w.before.payload.env env
  reasoningEffort : ∀ v, patch.reasoningEffort = some v → w.after.payload.reasoningEffort = some v
  serviceTier : ∀ v, patch.serviceTier = some v → w.after.payload.serviceTier = some v
  others : patch.hasMcpServers = false ∧ patch.hasGitReposOrPrompt = false

/-- How often a call has been settled. -/
def settledCount (store : ConfigStore Inst Call Rest Skill) (id : Call) : Nat := store.settled.countP fun e => decide (e.1 = id)

/-- No update is lost: the writes are chained; a call resolves with the row of a write that carries its patch from the version it
expected; the patch of a rejected call is in no write; and every call settles once, and from every state can be settled. -/
structure NoLostUpdate (schema : PayloadSchema Rest) (agentId : String) (row : ConfigRow Rest Skill)
    (s : ConfigSystem Inst Call Rest Skill) : Prop where
  chained : Chained schema row s.store.history s.store.row
  aggregated : ∀ w ∈ s.store.history, ∀ patch provider cipher, w.change = .patch patch provider cipher →
    patch = aggregatePatches (w.contributors.map (·.patch))
  resolved : ∀ id config, (id, .resolved config) ∈ s.store.settled → ∃ w ∈ s.store.history, ∃ a ∈ w.contributors, a.id = id ∧
    a ∈ s.store.begun ∧ w.before.version = a.expectedVersion ∧ config = ⟨w.after.version, redact w.after.payload⟩ ∧ Carries a.patch w
  rejected : ∀ id error, (id, .rejected error) ∈ s.store.settled → ∀ w ∈ s.store.history, ∀ a ∈ w.contributors, a.id ≠ id
  once : ∀ id, settledCount s.store id ≤ 1
  atRest : s.Quiescent → (∀ i, (instanceOf s.store i).pending = []) → ∀ a ∈ s.store.begun, settledCount s.store a.id = 1
  settles : ∀ a ∈ s.store.begun, ∃ ops t, Run (ofPartial (step schema agentId)) s ops t ∧ settledCount t.store a.id = 1

/-- In every run from a row no update is lost. -/
def NeverLosesUpdate (schema : PayloadSchema Rest) (agentId : String)
    (steps : ConfigSystem Inst Call Rest Skill → ConfigOp Inst Call → ConfigSystem Inst Call Rest Skill → Prop) : Prop :=
  ∀ row provider ops s, Run steps (init row provider) ops s → NoLostUpdate schema agentId row s

/-- The callers agree on the fields they share. -/
structure Agree (awaiters : List (ConfigAwaiter Call)) : Prop where
  model : ∀ a ∈ awaiters, ∀ b ∈ awaiters, ∀ v w, a.patch.model = some v → b.patch.model = some w → v = w
  env : ∀ a ∈ awaiters, ∀ b ∈ awaiters, ∀ v w, a.patch.env = some v → b.patch.env = some w → v = w
  reasoningEffort : ∀ a ∈ awaiters, ∀ b ∈ awaiters, ∀ v w, a.patch.reasoningEffort = some v → b.patch.reasoningEffort = some w → v = w
  serviceTier : ∀ a ∈ awaiters, ∀ b ∈ awaiters, ∀ v w, a.patch.serviceTier = some v → b.patch.serviceTier = some w → v = w

/-- The provider has the fields of a patch that not every provider has. -/
def HasFields (provider : RuntimeProvider) (patch : ConfigPatch) : Prop :=
  (patch.reasoningEffort ≠ none → reasoningEfforts provider ≠ none) ∧ (patch.serviceTier ≠ none → provider = .codex)

/-- A switch writes while what it retags is as it has read it; and callers whose update finds its version agree on the fields they
share, which the agent's provider has. -/
def WritesOver (schema : PayloadSchema Rest) (s : ConfigSystem Inst Call Rest Skill) : ConfigOp Inst Call → Prop
  | .run job _ => ∀ next, s.find job = some next → match next with
    | .switchWrite target snapshot =>
      retagRuntimeConfigPayload schema snapshot target = retagRuntimeConfigPayload schema s.store.row.payload target
    | .updateRow commit change _ => s.store.row.version = commit.expectedVersion →
        Agree commit.awaiters ∧ ∀ patch provider cipher, change = .patch patch provider cipher → HasFields provider patch
    | _ => True
  | _ => True

end AgentConfig

namespace AgentConfigAux

/-! ## Payloads -/

/-- What a parse keeps of a payload, and of a provider-only field that the provider has. -/
theorem parsePayload_spec {schema : PayloadSchema Rest} {payload parsed : ConfigPayload Rest Skill}
    (h : parsePayload schema payload = some parsed) :
    parsed.model = payload.model ∧ parsed.env = payload.env ∧
      (reasoningEfforts payload.kind ≠ none → ∀ v, payload.reasoningEffort = some v → parsed.reasoningEffort = some v) ∧
      (payload.kind = .codex → ∀ v, payload.serviceTier = some v → parsed.serviceTier = some v) := by
  unfold parsePayload at h
  split at h
  · simp only [Option.bind_eq_bind, Option.bind_eq_some_iff, Option.pure_def, Option.some.injEq] at h
    obtain ⟨effort, heffort, tier, htier, rest, _, rfl⟩ := h
    refine ⟨rfl, rfl, fun hhas v hv => ?_, fun hkind v hv => ?_⟩
    · unfold parseReasoningEffort at heffort
      split at heffort
      · next hnone => exact absurd hnone hhas
      · rw [hv, Option.getD_some] at heffort
        split at heffort
        · exact (Option.some.inj heffort).symm
        · cases heffort
    · unfold parseServiceTier at htier
      rw [if_pos hkind, hv, Option.getD_some] at htier
      split at htier
      · cases htier
      · exact (Option.some.inj htier).symm
  · cases h

/-- A merge carries the patch, as far as the provider has its fields. -/
theorem mergedPayload_spec {schema : PayloadSchema Rest} {cipher : EnvEntry → String} {provider : RuntimeProvider}
    {current validated : ConfigPayload Rest Skill} {patch : ConfigPatch}
    (h : mergedPayload schema cipher provider current patch = .ok validated) (hfields : HasFields provider patch) :
    (∀ v, patch.model = some v → validated.model = v) ∧
      (∀ env, patch.env = some env → validated.env = mergeEnv cipher current.env env) ∧
      (∀ v, patch.reasoningEffort = some v → validated.reasoningEffort = some v) ∧
      (∀ v, patch.serviceTier = some v → validated.serviceTier = some v) ∧
      patch.hasMcpServers = false ∧ patch.hasGitReposOrPrompt = false := by
  unfold mergedPayload at h
  cases hmerged : applyPatch cipher current patch with
  | error e =>
    rw [hmerged] at h
    cases h
  | ok merged =>
    rw [hmerged] at h
    unfold applyPatch at hmerged
    obtain ⟨hmcp, hmerged⟩ := refuse_bind_ok hmerged
    obtain ⟨hlegacy, hmerged⟩ := refuse_bind_ok hmerged
    obtain ⟨_, hmerged⟩ := refuse_bind_ok hmerged
    obtain ⟨_, hmerged⟩ := refuse_bind_ok hmerged
    obtain rfl := Except.ok.inj hmerged
    simp only [bind, Except.bind] at h
    split at h
    · rename_i payload hparse
      obtain rfl := Except.ok.inj h
      obtain ⟨hmodel, henv, heffort, htier⟩ := parsePayload_spec hparse
      refine ⟨fun v hv => ?_, fun env hv => ?_, fun v hv => ?_, fun v hv => ?_, ?_, ?_⟩
      · rw [hmodel, hv, Option.getD_some]
      · rw [henv, hv]
      · exact heffort (hfields.1 (by rw [hv]; simp)) v (by rw [hv, Option.some_or])
      · exact htier (hfields.2 (by rw [hv]; simp)) v (by rw [hv, Option.some_or])
      · simpa using hmcp
      · simpa using hlegacy
    · cases h

/-! ## Aggregated patches -/

/-- A fold that assigns later values over earlier ones. -/
theorem foldl_or_eq {α β : Type} (f : α → Option β) {v : β} (l : List α) (start : Option β) (hstart : ∀ w, start = some w → w = v)
    (h : ∀ x ∈ l, ∀ w, f x = some w → w = v) : l.foldl (fun acc x => (f x).or acc) start = none ∨
      l.foldl (fun acc x => (f x).or acc) start = some v := by
  induction l generalizing start with
  | nil =>
    cases start with
    | none => exact Or.inl rfl
    | some w => exact Or.inr (congrArg some (hstart w rfl))
  | cons x l ih =>
    refine ih ((f x).or start) (fun w hw => ?_) fun y hy => h y (List.mem_cons_of_mem _ hy)
    cases hx : f x with
    | none =>
      rw [hx, Option.none_or] at hw
      exact hstart w hw
    | some u =>
      rw [hx, Option.some_or] at hw
      exact h x List.mem_cons_self w (hx.trans hw)

/-- A fold that assigns later values over earlier ones loses none of them. -/
theorem foldl_or_ne_none {α β : Type} (f : α → Option β) (l : List α) (start : Option β)
    (h : start ≠ none ∨ ∃ x ∈ l, f x ≠ none) : l.foldl (fun acc x => (f x).or acc) start ≠ none := by
  induction l generalizing start with
  | nil => exact h.resolve_right (by simp)
  | cons x l ih =>
    refine ih _ ?_
    rcases h with hstart | ⟨y, hy, hne⟩
    · exact Or.inl (by simp [hstart])
    · rcases List.mem_cons.mp hy with rfl | hy
      · exact Or.inl (by simp [hne])
      · exact Or.inr ⟨y, hy, hne⟩

/-- A field of an aggregated patch has the value of the callers that have it, when they agree. -/
theorem foldl_or_of_agree {α β : Type} (f : α → Option β) {l : List α} {x : α} {v : β} (hx : x ∈ l) (hv : f x = some v)
    (h : ∀ y ∈ l, ∀ w, f y = some w → w = v) : l.foldl (fun acc x => (f x).or acc) none = some v :=
  (foldl_or_eq f l none (by simp) h).resolve_left (foldl_or_ne_none f l none (Or.inr ⟨x, hx, by simp [hv]⟩))

/-- A flag that any caller raises is raised. -/
theorem foldl_bool_or {α : Type} (f : α → Bool) (l : List α) (start : Bool) :
    l.foldl (fun acc x => acc || f x) start = (start || l.any f) := by
  induction l generalizing start with
  | nil => simp
  | cons x l ih => rw [List.foldl_cons, ih, List.any_cons, Bool.or_assoc]

/-- A single patch is its own aggregate. -/
theorem aggregatePatches_singleton (patch : ConfigPatch) : aggregatePatches [patch] = patch := by
  cases patch
  simp [aggregatePatches, assignPatch]

omit [DecidableEq Call] in
/-- An aggregated patch has the fields of each caller, when the callers agree, and no field of the legacy writes that a caller has
not. -/
theorem aggregatePatches_spec {awaiters : List (ConfigAwaiter Call)} (h : Agree awaiters) {a : ConfigAwaiter Call} (ha : a ∈ awaiters)
    {patch : ConfigPatch} (hp : patch = aggregatePatches (awaiters.map (·.patch))) :
    (∀ v, a.patch.model = some v → patch.model = some v) ∧ (∀ v, a.patch.env = some v → patch.env = some v) ∧
      (∀ v, a.patch.reasoningEffort = some v → patch.reasoningEffort = some v) ∧
      (∀ v, a.patch.serviceTier = some v → patch.serviceTier = some v) ∧
      (patch.hasMcpServers = false → a.patch.hasMcpServers = false) ∧
      (patch.hasGitReposOrPrompt = false → a.patch.hasGitReposOrPrompt = false) := by
  have hfield : ∀ {β : Type} (f : ConfigPatch → Option β), f patch = (awaiters.map (·.patch)).foldl (fun acc p => (f p).or acc) none →
      (∀ b ∈ awaiters, ∀ c ∈ awaiters, ∀ v w, f b.patch = some v → f c.patch = some w → v = w) →
      ∀ v, f a.patch = some v → f patch = some v := by
    intro β f hf hagree v hv
    refine hf.trans ((List.foldl_map ..).trans ?_)
    exact foldl_or_of_agree (fun b : ConfigAwaiter Call => f b.patch) ha hv fun b hb w hw => hagree b hb a ha w v hw hv
  have hflag : ∀ f : ConfigPatch → Bool, f patch = (awaiters.map (·.patch)).foldl (fun acc p => acc || f p) false →
      f patch = false → f a.patch = false := by
    intro f hf hfalse
    rw [hf, foldl_bool_or, Bool.false_or, List.any_map] at hfalse
    simpa using List.any_eq_false.mp hfalse a ha
  have hproj : ∀ {γ : Type} (f : ConfigPatch → γ) (g : γ → ConfigPatch → γ), (∀ acc p, f (assignPatch acc p) = g (f acc) p) →
      f patch = (awaiters.map (·.patch)).foldl g (f ⟨none, none, none, none, false, false⟩) := by
    intro γ f g hg
    rw [hp]
    exact (List.foldl_hom f fun acc p => (hg acc p).symm).symm
  exact ⟨hfield _ (hproj (·.model) (fun acc p => p.model.or acc) fun _ _ => rfl) h.model,
    hfield _ (hproj (·.env) (fun acc p => p.env.or acc) fun _ _ => rfl) h.env,
    hfield _ (hproj (·.reasoningEffort) (fun acc p => p.reasoningEffort.or acc) fun _ _ => rfl) h.reasoningEffort,
    hfield _ (hproj (·.serviceTier) (fun acc p => p.serviceTier.or acc) fun _ _ => rfl) h.serviceTier,
    hflag _ (hproj (·.hasMcpServers) (fun acc p => acc || p.hasMcpServers) fun _ _ => rfl),
    hflag _ (hproj (·.hasGitReposOrPrompt) (fun acc p => acc || p.hasGitReposOrPrompt) fun _ _ => rfl)⟩

/-! ## The chain of writes -/

omit [DecidableEq Call] in
/-- A chain is longer by a write over its last row. -/
theorem chained_append {schema : PayloadSchema Rest} {row last : ConfigRow Rest Skill} {ws : List (ConfigWrite Call Rest Skill)}
    (h : Chained schema row ws last) {w : ConfigWrite Call Rest Skill} (hbefore : w.before = last)
    (hversion : last.version < w.after.version) (hchange : applyChange schema last.payload w.change = some w.after.payload) :
    Chained schema row (ws ++ [w]) w.after := by
  induction ws generalizing row with
  | nil =>
    obtain rfl : last = row := h
    exact ⟨hbefore, hversion, hchange, rfl⟩
  | cons w' ws ih => exact ⟨h.1, h.2.1, h.2.2.1, ih h.2.2.2⟩

/-! ## The invariant -/

/-- A `commitWrite` is for callers of its version, with their patches. -/
structure CommitOk (store : ConfigStore Inst Call Rest Skill) (commit : ConfigCommit Inst Call) : Prop where
  expected : ∀ a ∈ commit.awaiters, a.expectedVersion = commit.expectedVersion
  patch : commit.patch = aggregatePatches (commit.awaiters.map (·.patch))
  begun : ∀ a ∈ commit.awaiters, a ∈ store.begun

/-- What the next statement of a writer rests on. -/
def NextOk (schema : PayloadSchema Rest) (store : ConfigStore Inst Call Rest Skill) : ConfigStatement Inst Call Rest Skill → Prop
  | .flushRead awaiters => ∀ a ∈ awaiters, a ∈ store.begun
  | .readRow commit => CommitOk store commit
  | .readProvider commit current => CommitOk store commit ∧ commit.expectedVersion ≤ store.row.version ∧
      (store.row.version = commit.expectedVersion → parsePayload schema store.row.payload = some current)
  | .updateRow commit change validated => CommitOk store commit ∧ commit.expectedVersion ≤ store.row.version ∧
      ∃ provider cipher, change = .patch commit.patch provider cipher ∧
        (store.row.version = commit.expectedVersion → ∃ current, parsePayload schema store.row.payload = some current ∧
          mergedPayload schema cipher provider current commit.patch = .ok validated)
  | .switchDone target row => row.version = store.row.version + 1 ∧
      retagRuntimeConfigPayload schema store.row.payload target = some row.payload
  | .bumpDone row => row = ⟨store.row.version + 1, store.row.payload⟩
  | _ => True

/-- What holds of the row, the instances and the settled calls. -/
structure StoreOk (schema : PayloadSchema Rest) (row : ConfigRow Rest Skill) (store : ConfigStore Inst Call Rest Skill) : Prop where
  chained : Chained schema row store.history store.row
  aggregated : ∀ w ∈ store.history, ∀ patch provider cipher, w.change = .patch patch provider cipher →
    patch = aggregatePatches (w.contributors.map (·.patch))
  resolved : ∀ id config, (id, .resolved config) ∈ store.settled → ∃ w ∈ store.history, ∃ a ∈ w.contributors, a.id = id ∧
    a ∈ store.begun ∧ w.before.version = a.expectedVersion ∧ config = ⟨w.after.version, redact w.after.payload⟩ ∧ Carries a.patch w
  contributors : ∀ w ∈ store.history, ∀ a ∈ w.contributors, ∃ config, (a.id, .resolved config) ∈ store.settled
  pending : ∀ i, ∀ a ∈ (instanceOf store i).pending, a ∈ store.begun

/-- The invariant of the row and its writers: no two of them hold the row. -/
abbrev Sound (schema : PayloadSchema Rest) (row : ConfigRow Rest Skill) (s : ConfigSystem Inst Call Rest Skill) : Prop :=
  Invariant (StoreOk schema row) (NextOk schema) (Exclusive fun next (_ : Unit) => holdsRow next = true) s

/-! ## What a step leaves to the other writers -/

omit [DecidableEq Inst] [DecidableEq Call] in
/-- A caller list that only grows. -/
theorem CommitOk.mono {store store' : ConfigStore Inst Call Rest Skill} {commit : ConfigCommit Inst Call} (h : CommitOk store commit)
    (hbegun : ∀ a ∈ store.begun, a ∈ store'.begun) : CommitOk store' commit :=
  ⟨h.expected, h.patch, fun a ha => hbegun a (h.begun a ha)⟩

omit [DecidableEq Inst] [DecidableEq Call] in
/-- A step that leaves the row leaves a writer what it rests on. -/
theorem NextOk.of_row {schema : PayloadSchema Rest} {store store' : ConfigStore Inst Call Rest Skill}
    {next : ConfigStatement Inst Call Rest Skill} (h : NextOk schema store next) (hrow : store'.row = store.row)
    (hbegun : ∀ a ∈ store.begun, a ∈ store'.begun) : NextOk schema store' next := by
  cases next with
  | flushRead awaiters => exact fun a ha => hbegun a (h a ha)
  | readRow commit => exact CommitOk.mono h hbegun
  | readProvider commit current =>
    refine ⟨h.1.mono hbegun, ?_⟩
    rw [hrow]
    exact h.2
  | updateRow commit change validated =>
    refine ⟨h.1.mono hbegun, ?_⟩
    rw [hrow]
    exact h.2
  | switchDone target row =>
    unfold NextOk at h ⊢
    rw [hrow]
    exact h
  | bumpDone row =>
    unfold NextOk at h ⊢
    rw [hrow]
    exact h
  | _ => trivial

omit [DecidableEq Inst] [DecidableEq Call] in
/-- A write of the row by another leaves a writer that does not hold it with a version that is not the one it has read. -/
theorem NextOk.of_write {schema : PayloadSchema Rest} {store store' : ConfigStore Inst Call Rest Skill}
    {next : ConfigStatement Inst Call Rest Skill} (h : NextOk schema store next) (hfree : holdsRow next = false)
    (hversion : store.row.version < store'.row.version) (hbegun : store'.begun = store.begun) : NextOk schema store' next := by
  have hmono : ∀ a ∈ store.begun, a ∈ store'.begun := fun a ha => hbegun ▸ ha
  cases next with
  | flushRead awaiters => exact fun a ha => hmono a (h a ha)
  | readRow commit => exact CommitOk.mono h hmono
  | readProvider commit current =>
    obtain ⟨hcommit, hle, _⟩ := h
    exact ⟨hcommit.mono hmono, by omega, fun heq => by omega⟩
  | updateRow commit change validated =>
    obtain ⟨hcommit, hle, provider, cipher, hchange, _⟩ := h
    exact ⟨hcommit.mono hmono, by omega, provider, cipher, hchange, fun heq => by omega⟩
  | switchDone target row => cases hfree
  | bumpDone row => cases hfree
  | _ => trivial

/-! ## Answers -/

/-- How often a call waits in a list of callers. -/
def waiting (id : Call) (awaiters : List (ConfigAwaiter Call)) : Nat := awaiters.countP fun a => decide (a.id = id)

/-- How often a call waits in the pending slots. -/
def pendingCount (store : ConfigStore Inst Call Rest Skill) (id : Call) : Nat :=
  AssocList.total (fun e => waiting id e.2.pending) store.instances

/-- The callers a writer is going to answer. -/
def jobAwaiters : ConfigStatement Inst Call Rest Skill → List (ConfigAwaiter Call)
  | .flushRead awaiters => awaiters
  | .readRow commit => commit.awaiters
  | .readProvider commit _ => commit.awaiters
  | .updateRow commit _ _ => commit.awaiters
  | _ => []

omit [DecidableEq Call] in
/-- The instances after one of them has changed. -/
theorem instanceOf_setInstance (store : ConfigStore Inst Call Rest Skill) (i j : Inst) (new : ConfigInstance Call) :
    instanceOf (setInstance store i new) j = if j = i then new else instanceOf store j := by
  unfold instanceOf setInstance
  by_cases h : j = i
  · subst h
    simp
  · simp [h, AList.lookup_insert_ne h]

/-- The pending slots after one instance has changed. -/
theorem pendingCount_setInstance (store : ConfigStore Inst Call Rest Skill) (i : Inst) (new : ConfigInstance Call) (id : Call) :
    pendingCount (setInstance store i new) id + waiting id (instanceOf store i).pending =
      pendingCount store id + waiting id new.pending := by
  have htotal :=
    AssocList.total_insert (fun e : Sigma fun _ : Inst => ConfigInstance Call => waiting id e.2.pending) store.instances i new
  have hweight : AssocList.weightAt (fun e : Sigma fun _ : Inst => ConfigInstance Call => waiting id e.2.pending) store.instances i =
      waiting id (instanceOf store i).pending := by
    unfold AssocList.weightAt instanceOf
    cases store.instances.lookup i with
    | none => rfl
    | some old => rfl
  rw [hweight] at htotal
  exact htotal

/-- A store in which callers have been answered, and nothing else has changed but for the bursts. -/
structure Answered (store store' : ConfigStore Inst Call Rest Skill) (awaiters : List (ConfigAwaiter Call))
    (outcome : ConfigAwaiter Call → ConfigOutcome Rest Skill) : Prop where
  row : store'.row = store.row
  begun : store'.begun = store.begun
  history : store'.history = store.history
  settled : store'.settled = store.settled ++ awaiters.map fun a => (a.id, outcome a)
  pending : ∀ i, (instanceOf store' i).pending = (instanceOf store i).pending
  count : ∀ id, pendingCount store' id = pendingCount store id

/-- Callers are answered. -/
theorem answered_settle (store : ConfigStore Inst Call Rest Skill) (awaiters : List (ConfigAwaiter Call))
    (outcome : ConfigAwaiter Call → ConfigOutcome Rest Skill) : Answered store (settle store awaiters outcome) awaiters outcome :=
  ⟨rfl, rfl, rfl, rfl, fun _ => rfl, fun _ => rfl⟩

/-- Callers are answered, and the burst of an instance changes. -/
theorem answered_setInstance (store : ConfigStore Inst Call Rest Skill) (awaiters : List (ConfigAwaiter Call))
    (outcome : ConfigAwaiter Call → ConfigOutcome Rest Skill) (i : Inst) {new : ConfigInstance Call}
    (hnew : new.pending = (instanceOf store i).pending) :
    Answered store (setInstance (settle store awaiters outcome) i new) awaiters outcome where
  row := rfl
  begun := rfl
  history := rfl
  settled := rfl
  pending j := by
    rw [instanceOf_setInstance]
    split
    · next h => rw [hnew, h]
    · rfl
  count id := by
    have hcount := pendingCount_setInstance (settle store awaiters outcome) i new id
    have hsame : pendingCount (settle store awaiters outcome) id = pendingCount store id := rfl
    have hinstance : (instanceOf (settle store awaiters outcome) i).pending = (instanceOf store i).pending := rfl
    rw [hinstance, hnew, hsame] at hcount
    omega

/-- The callers of a commit that throws are rejected. -/
theorem answered_rejectCommit (store : ConfigStore Inst Call Rest Skill) (commit : ConfigCommit Inst Call) (error : ServiceError) :
    Answered store (rejectCommit store commit error) commit.awaiters fun _ => .rejected error := by
  unfold rejectCommit
  cases commit.firstOfBurst with
  | none => exact answered_settle store commit.awaiters _
  | some i => exact answered_setInstance store commit.awaiters _ i rfl

/-- The callers of a commit that returns are resolved. -/
theorem answered_resolveCommit (store : ConfigStore Inst Call Rest Skill) (commit : ConfigCommit Inst Call)
    (row : ConfigRow Rest Skill) :
    Answered store (resolveCommit store commit row) commit.awaiters fun _ => .resolved ⟨row.version, redact row.payload⟩ := by
  unfold resolveCommit
  cases commit.firstOfBurst with
  | none => exact answered_settle store commit.awaiters _
  | some i => exact answered_setInstance store commit.awaiters _ i rfl

/-- How often a call has been settled after callers have been answered. -/
theorem Answered.settledCount {store store' : ConfigStore Inst Call Rest Skill} {awaiters : List (ConfigAwaiter Call)}
    {outcome : ConfigAwaiter Call → ConfigOutcome Rest Skill} (h : Answered store store' awaiters outcome) (id : Call) :
    settledCount store' id = settledCount store id + waiting id awaiters := by
  unfold AgentConfig.settledCount waiting
  rw [h.settled, List.countP_append, List.countP_map]
  rfl

/-- Rejections keep what holds of the store. -/
theorem StoreOk.rejected {schema : PayloadSchema Rest} {row : ConfigRow Rest Skill} {store store' : ConfigStore Inst Call Rest Skill}
    (h : StoreOk schema row store) {awaiters : List (ConfigAwaiter Call)} {error : ConfigAwaiter Call → ServiceError}
    (ha : Answered store store' awaiters fun a => .rejected (error a)) : StoreOk schema row store' where
  chained := by
    rw [ha.history, ha.row]
    exact h.chained
  aggregated := by
    rw [ha.history]
    exact h.aggregated
  resolved id config hmem := by
    rw [ha.settled] at hmem
    rw [ha.history, ha.begun]
    rcases List.mem_append.mp hmem with hmem | hmem
    · exact h.resolved id config hmem
    · obtain ⟨a, _, heq⟩ := List.mem_map.mp hmem
      cases (Prod.mk.inj heq).2
  contributors w hw a hmem := by
    rw [ha.history] at hw
    rw [ha.settled]
    obtain ⟨config, hconfig⟩ := h.contributors w hw a hmem
    exact ⟨config, List.mem_append_left _ hconfig⟩
  pending i a hmem := by
    rw [ha.pending] at hmem
    rw [ha.begun]
    exact h.pending i a hmem

omit [DecidableEq Call] in
/-- Another state of an instance, with pending callers that have begun. -/
theorem StoreOk.setInstance {schema : PayloadSchema Rest} {row : ConfigRow Rest Skill} {store : ConfigStore Inst Call Rest Skill}
    (h : StoreOk schema row store) (i : Inst) {new : ConfigInstance Call} (hnew : ∀ a ∈ new.pending, a ∈ store.begun) :
    StoreOk schema row (AgentConfig.setInstance store i new) where
  chained := h.chained
  aggregated := h.aggregated
  resolved := h.resolved
  contributors := h.contributors
  pending j a ha := by
    rw [instanceOf_setInstance] at ha
    split at ha
    · exact hnew a ha
    · exact h.pending j a ha

/-! ## One statement -/

/-- What a statement does to the callers: those of its writer are answered once or wait on with it. -/
structure Handled (store : ConfigStore Inst Call Rest Skill) (next : ConfigStatement Inst Call Rest Skill)
    (ran : ConfigStore Inst Call Rest Skill × Option (ConfigStatement Inst Call Rest Skill)) : Prop where
  begun : ran.1.begun = store.begun
  pending : ∀ id, pendingCount ran.1 id = pendingCount store id
  settled : ∀ id, settledCount ran.1 id + waiting id (ran.2.elim [] jobAwaiters) =
    settledCount store id + waiting id (jobAwaiters next)

/-- A writer that answers its callers and ends. -/
theorem Answered.handled {store store' : ConfigStore Inst Call Rest Skill} {next : ConfigStatement Inst Call Rest Skill}
    {outcome : ConfigAwaiter Call → ConfigOutcome Rest Skill} (h : Answered store store' (jobAwaiters next) outcome) :
    Handled store next (store', none) where
  begun := h.begun
  pending := h.count
  settled := h.settledCount

omit [DecidableEq Inst] in
/-- A writer that goes on for the same callers. -/
theorem Handled.goOn {store : ConfigStore Inst Call Rest Skill} {next n : ConfigStatement Inst Call Rest Skill}
    (hsame : jobAwaiters n = jobAwaiters next) : Handled store next (store, some n) where
  begun := rfl
  pending _ := rfl
  settled id := by rw [Option.elim_some, hsame]

/-- The read of a flush answers the callers of another version, and the others wait on. -/
theorem handled_flushRead {schema : PayloadSchema Rest} {agentId : String} {store : ConfigStore Inst Call Rest Skill} {locked : Bool}
    {cipher : EnvEntry → String} {awaiters : List (ConfigAwaiter Call)}
    {ran : ConfigStore Inst Call Rest Skill × Option (ConfigStatement Inst Call Rest Skill)}
    (hran : runStatement schema agentId store locked cipher (.flushRead awaiters) = some ran) :
    Handled store (.flushRead awaiters) ran := by
  simp only [runStatement] at hran
  split at hran
  · obtain rfl := Option.some.inj hran
    exact Answered.handled (answered_settle store awaiters _)
  · obtain rfl := Option.some.inj hran
    have ha := answered_settle store (awaiters.filter fun a => !decide (a.expectedVersion = store.row.version))
      fun a => .rejected (versionMismatch agentId a.expectedVersion store.row.version)
    refine ⟨ha.begun, ha.count, fun id => ?_⟩
    have hsettled := ha.settledCount id
    have hsplit := List.countP_eq_countP_filter_add awaiters (fun a => decide (a.id = id))
      fun a => decide (a.expectedVersion = store.row.version)
    dsimp only
    split
    · next hnil =>
      rw [hnil] at hsplit
      simp only [Option.elim_none, waiting, jobAwaiters, List.countP_nil] at hsettled hsplit ⊢
      omega
    · simp only [Option.elim_some, waiting, jobAwaiters] at hsettled hsplit ⊢
      omega

/-- A statement answers the callers of its writer once, or they wait on. -/
theorem handled_statement {schema : PayloadSchema Rest} {agentId : String} {store : ConfigStore Inst Call Rest Skill} {locked : Bool}
    {cipher : EnvEntry → String} {next : ConfigStatement Inst Call Rest Skill}
    {ran : ConfigStore Inst Call Rest Skill × Option (ConfigStatement Inst Call Rest Skill)}
    (hran : runStatement schema agentId store locked cipher next = some ran) : Handled store next ran := by
  cases next with
  | flushRead awaiters => exact handled_flushRead hran
  | readRow commit =>
    simp only [runStatement] at hran
    split at hran
    · obtain rfl := Option.some.inj hran
      exact Answered.handled (answered_rejectCommit store commit _)
    · split at hran
      · obtain rfl := Option.some.inj hran
        exact Answered.handled (answered_rejectCommit store commit _)
      · obtain rfl := Option.some.inj hran
        exact Handled.goOn rfl
  | readProvider commit current =>
    simp only [runStatement] at hran
    split at hran
    · obtain rfl := Option.some.inj hran
      exact Answered.handled (answered_rejectCommit store commit _)
    · obtain rfl := Option.some.inj hran
      exact Handled.goOn rfl
  | updateRow commit change validated =>
    simp only [runStatement] at hran
    split at hran
    · cases hran
    · split at hran
      · obtain rfl := Option.some.inj hran
        have ha := answered_resolveCommit (commitRow store change commit.awaiters ⟨store.row.version + 1, validated⟩) commit
          ⟨store.row.version + 1, validated⟩
        exact ⟨ha.begun, ha.count, ha.settledCount⟩
      · obtain rfl := Option.some.inj hran
        exact Answered.handled (answered_rejectCommit store commit _)
  | switchWrite target snapshot =>
    simp only [runStatement] at hran
    split at hran
    · cases hran
    · split at hran
      · obtain rfl := Option.some.inj hran
        exact Handled.goOn rfl
      · obtain rfl := Option.some.inj hran
        exact ⟨rfl, fun _ => rfl, fun _ => rfl⟩
  | bumpWrite =>
    simp only [runStatement] at hran
    split at hran
    · cases hran
    · obtain rfl := Option.some.inj hran
      exact Handled.goOn rfl
  | _ =>
    obtain rfl := Option.some.inj hran
    exact ⟨rfl, fun _ => rfl, fun _ => rfl⟩

/-- What a statement does to the row: it keeps what holds of the store, and it leaves the row or writes it under no other writer that
holds it. -/
structure Ran (schema : PayloadSchema Rest) (row : ConfigRow Rest Skill) (store : ConfigStore Inst Call Rest Skill) (locked : Bool)
    (next : ConfigStatement Inst Call Rest Skill)
    (ran : ConfigStore Inst Call Rest Skill × Option (ConfigStatement Inst Call Rest Skill)) : Prop where
  sound : StoreOk schema row ran.1
  goesOn : ∀ n, ran.2 = some n → NextOk schema ran.1 n ∧ (holdsRow n = true → locked = false)
  written : ran.1.row = store.row ∨ (store.row.version < ran.1.row.version ∧ (locked = false ∨ holdsRow next = true))

/-- A writer that rejects its callers and ends. -/
theorem Ran.reject {schema : PayloadSchema Rest} {row : ConfigRow Rest Skill} {store store' : ConfigStore Inst Call Rest Skill}
    {locked : Bool} {next : ConfigStatement Inst Call Rest Skill} (h : StoreOk schema row store)
    {error : ConfigAwaiter Call → ServiceError}
    {awaiters : List (ConfigAwaiter Call)} (ha : Answered store store' awaiters fun a => .rejected (error a)) :
    Ran schema row store locked next (store', none) where
  sound := h.rejected ha
  goesOn := by simp
  written := Or.inl ha.row

omit [DecidableEq Call] in
/-- A writer that goes on over the same row. -/
theorem Ran.goOn {schema : PayloadSchema Rest} {row : ConfigRow Rest Skill} {store : ConfigStore Inst Call Rest Skill} {locked : Bool}
    {next n : ConfigStatement Inst Call Rest Skill} (h : StoreOk schema row store) (hn : NextOk schema store n)
    (hlocked : holdsRow n = true → locked = false) : Ran schema row store locked next (store, some n) where
  sound := h
  goesOn _ hn' := Option.some.inj hn' ▸ ⟨hn, hlocked⟩
  written := Or.inl rfl

/-- The read of a flush: the callers of another version are rejected, the others go on together. -/
theorem ran_flushRead {schema : PayloadSchema Rest} {agentId : String} {row : ConfigRow Rest Skill}
    {store : ConfigStore Inst Call Rest Skill} {locked : Bool} {cipher : EnvEntry → String} (h : StoreOk schema row store)
    {awaiters : List (ConfigAwaiter Call)} (hbegun : ∀ a ∈ awaiters, a ∈ store.begun)
    {ran : ConfigStore Inst Call Rest Skill × Option (ConfigStatement Inst Call Rest Skill)}
    (hran : runStatement schema agentId store locked cipher (.flushRead awaiters) = some ran) :
    Ran schema row store locked (.flushRead awaiters) ran := by
  simp only [runStatement] at hran
  split at hran
  · obtain rfl := Option.some.inj hran
    exact Ran.reject h (answered_settle store awaiters _)
  · obtain rfl := Option.some.inj hran
    have ha := answered_settle store (awaiters.filter fun a => !decide (a.expectedVersion = store.row.version))
      fun a => .rejected (versionMismatch agentId a.expectedVersion store.row.version)
    refine ⟨h.rejected ha, fun n hn => ?_, Or.inl ha.row⟩
    dsimp only at hn
    split at hn
    · cases hn
    · obtain rfl := Option.some.inj hn
      refine ⟨⟨fun a hmem => ?_, rfl, fun a hmem => ?_⟩, fun hholds => by cases hholds⟩
      · exact of_decide_eq_true (List.mem_filter.mp hmem).2
      · exact hbegun a (List.mem_filter.mp hmem).1

/-- The read of the row by `commitWrite`. -/
theorem ran_readRow {schema : PayloadSchema Rest} {agentId : String} {row : ConfigRow Rest Skill}
    {store : ConfigStore Inst Call Rest Skill} {locked : Bool} {cipher : EnvEntry → String} (h : StoreOk schema row store)
    {commit : ConfigCommit Inst Call} (hcommit : CommitOk store commit)
    {ran : ConfigStore Inst Call Rest Skill × Option (ConfigStatement Inst Call Rest Skill)}
    (hran : runStatement schema agentId store locked cipher (.readRow commit) = some ran) :
    Ran schema row store locked (.readRow commit) ran := by
  simp only [runStatement] at hran
  split at hran
  · obtain rfl := Option.some.inj hran
    exact Ran.reject h (answered_rejectCommit store commit _)
  · next current hparse =>
    split at hran
    · obtain rfl := Option.some.inj hran
      exact Ran.reject h (answered_rejectCommit store commit _)
    · next heq =>
      obtain rfl := Option.some.inj hran
      rw [ne_eq, not_not] at heq
      exact Ran.goOn h ⟨hcommit, heq.ge, fun _ => hparse⟩ fun hholds => by cases hholds

/-- The read of the provider, and the merge. -/
theorem ran_readProvider {schema : PayloadSchema Rest} {agentId : String} {row : ConfigRow Rest Skill}
    {store : ConfigStore Inst Call Rest Skill} {locked : Bool} {cipher : EnvEntry → String} (h : StoreOk schema row store)
    {commit : ConfigCommit Inst Call} {current : ConfigPayload Rest Skill}
    (hnext : NextOk schema store (.readProvider commit current))
    {ran : ConfigStore Inst Call Rest Skill × Option (ConfigStatement Inst Call Rest Skill)}
    (hran : runStatement schema agentId store locked cipher (.readProvider commit current) = some ran) :
    Ran schema row store locked (.readProvider commit current) ran := by
  obtain ⟨hcommit, hle, hread⟩ := hnext
  simp only [runStatement] at hran
  split at hran
  · obtain rfl := Option.some.inj hran
    exact Ran.reject h (answered_rejectCommit store commit _)
  · next validated hmerged =>
    obtain rfl := Option.some.inj hran
    exact Ran.goOn h ⟨hcommit, hle, store.provider, cipher, rfl, fun heq => ⟨current, hread heq, hmerged⟩⟩
      fun hholds => by cases hholds

/-- An update that finds its version writes the merge over the row it has read, and resolves its callers. -/
theorem storeOk_update {schema : PayloadSchema Rest} {row : ConfigRow Rest Skill} {store : ConfigStore Inst Call Rest Skill}
    (h : StoreOk schema row store) {commit : ConfigCommit Inst Call} (hcommit : CommitOk store commit)
    (hversion : store.row.version = commit.expectedVersion) {provider : RuntimeProvider} {cipher : EnvEntry → String}
    {current validated : ConfigPayload Rest Skill} (hparse : parsePayload schema store.row.payload = some current)
    (hmerged : mergedPayload schema cipher provider current commit.patch = .ok validated) (hagree : Agree commit.awaiters)
    (hfields : HasFields provider commit.patch) :
    StoreOk schema row (resolveCommit (commitRow store (.patch commit.patch provider cipher) commit.awaiters
      ⟨store.row.version + 1, validated⟩) commit ⟨store.row.version + 1, validated⟩) := by
  have ha := answered_resolveCommit (commitRow store (.patch commit.patch provider cipher) commit.awaiters
    ⟨store.row.version + 1, validated⟩) commit ⟨store.row.version + 1, validated⟩
  refine ⟨?_, fun w hw => ?_, fun id config hmem => ?_, fun w hw a hmem => ?_, fun i a hmem => ?_⟩
  · rw [ha.history, ha.row]
    refine chained_append h.chained rfl (Nat.lt_succ_self _) ?_
    simp [applyChange, hparse, hmerged, Except.toOption]
  · rw [ha.history] at hw
    rcases List.mem_append.mp hw with hw | hw
    · exact h.aggregated w hw
    · obtain rfl := List.mem_singleton.mp hw
      intro patch provider' cipher' heq
      exact (ConfigChange.patch.inj heq).1 ▸ hcommit.patch
  · rw [ha.settled] at hmem
    rw [ha.history, ha.begun]
    rcases List.mem_append.mp hmem with hmem | hmem
    · obtain ⟨w, hw, hrest⟩ := h.resolved id config hmem
      exact ⟨w, List.mem_append_left _ hw, hrest⟩
    · obtain ⟨a, hcaller, heq⟩ := List.mem_map.mp hmem
      obtain ⟨rfl, hconfig⟩ := Prod.mk.inj heq
      obtain rfl := ConfigOutcome.resolved.inj hconfig
      refine ⟨_, List.mem_append_right _ (List.mem_singleton_self _), a, hcaller, rfl, hcommit.begun a hcaller,
        hversion.trans (hcommit.expected a hcaller).symm, rfl, ?_⟩
      obtain ⟨hmodel, henv, heffort, htier, hmcp, hlegacy⟩ := aggregatePatches_spec hagree hcaller hcommit.patch
      obtain ⟨hmodel', henv', heffort', htier', hmcp', hlegacy'⟩ := mergedPayload_spec hmerged hfields
      refine ⟨fun v hv => hmodel' v (hmodel v hv), fun env hv => ⟨_, _, _, rfl, ?_⟩, fun v hv => heffort' v (heffort v hv),
        fun v hv => htier' v (htier v hv), hmcp hmcp', hlegacy hlegacy'⟩
      exact (henv' env (henv env hv)).trans (by rw [(parsePayload_spec hparse).2.1])
  · rw [ha.history] at hw
    rw [ha.settled]
    rcases List.mem_append.mp hw with hw | hw
    · obtain ⟨config, hconfig⟩ := h.contributors w hw a hmem
      exact ⟨config, List.mem_append_left _ hconfig⟩
    · obtain rfl := List.mem_singleton.mp hw
      exact ⟨_, List.mem_append_right _ (List.mem_map_of_mem hmem)⟩
  · rw [ha.pending] at hmem
    rw [ha.begun]
    exact h.pending i a hmem

/-- The update of `commitWrite`. -/
theorem ran_updateRow {schema : PayloadSchema Rest} {agentId : String} {row : ConfigRow Rest Skill}
    {store : ConfigStore Inst Call Rest Skill} {locked : Bool} {cipher : EnvEntry → String} (h : StoreOk schema row store)
    {commit : ConfigCommit Inst Call} {change : ConfigChange} {validated : ConfigPayload Rest Skill}
    (hnext : NextOk schema store (.updateRow commit change validated))
    (hguard : store.row.version = commit.expectedVersion → Agree commit.awaiters ∧
      ∀ patch provider cipher, change = .patch patch provider cipher → HasFields provider patch)
    {ran : ConfigStore Inst Call Rest Skill × Option (ConfigStatement Inst Call Rest Skill)}
    (hran : runStatement schema agentId store locked cipher (.updateRow commit change validated) = some ran) :
    Ran schema row store locked (.updateRow commit change validated) ran := by
  obtain ⟨hcommit, _, provider, cipher', rfl, hread⟩ := hnext
  simp only [runStatement] at hran
  split at hran
  · cases hran
  · next hlocked =>
    rw [Bool.not_eq_true] at hlocked
    split at hran
    · next hversion =>
      obtain rfl := Option.some.inj hran
      obtain ⟨current, hparse, hmerged⟩ := hread hversion
      obtain ⟨hagree, hfields⟩ := hguard hversion
      have ha := answered_resolveCommit (commitRow store (.patch commit.patch provider cipher') commit.awaiters
        ⟨store.row.version + 1, validated⟩) commit ⟨store.row.version + 1, validated⟩
      refine ⟨storeOk_update h hcommit hversion hparse hmerged hagree (hfields _ _ _ rfl), by simp, Or.inr ⟨?_, Or.inl hlocked⟩⟩
      rw [ha.row]
      exact Nat.lt_succ_self _
    · obtain rfl := Option.some.inj hran
      exact Ran.reject h (answered_rejectCommit store commit _)

omit [DecidableEq Call] in
/-- A write that carries no patch, over the committed row. -/
theorem storeOk_commitRow {schema : PayloadSchema Rest} {row : ConfigRow Rest Skill} {store : ConfigStore Inst Call Rest Skill}
    (h : StoreOk schema row store) (change : ConfigChange) {new : ConfigRow Rest Skill}
    (hversion : new.version = store.row.version + 1) (hchange : applyChange schema store.row.payload change = some new.payload)
    (hnot : ∀ patch provider cipher, change ≠ .patch patch provider cipher) : StoreOk schema row (commitRow store change [] new) where
  chained := chained_append (w := ⟨change, [], store.row, new⟩) h.chained rfl (hversion ▸ Nat.lt_succ_self store.row.version) hchange
  aggregated w hw patch provider cipher heq := by
    rcases List.mem_append.mp hw with hw | hw
    · exact h.aggregated w hw patch provider cipher heq
    · obtain rfl := List.mem_singleton.mp hw
      exact absurd heq (hnot patch provider cipher)
  resolved id config hmem := by
    obtain ⟨w, hw, hrest⟩ := h.resolved id config hmem
    exact ⟨w, List.mem_append_left _ hw, hrest⟩
  contributors w hw a hmem := by
    rcases List.mem_append.mp hw with hw | hw
    · exact h.contributors w hw a hmem
    · obtain rfl := List.mem_singleton.mp hw
      exact absurd hmem List.not_mem_nil
  pending := h.pending

omit [DecidableEq Call] in
/-- The commit of a writer that holds the row. -/
theorem ran_done {schema : PayloadSchema Rest} {row : ConfigRow Rest Skill} {store store' : ConfigStore Inst Call Rest Skill}
    {locked : Bool} {next : ConfigStatement Inst Call Rest Skill} {change : ConfigChange} {new : ConfigRow Rest Skill}
    (h : StoreOk schema row (commitRow store change [] new)) (hversion : new.version = store.row.version + 1)
    (hholds : holdsRow next = true) (provider : RuntimeProvider)
    (hstore : store' = { commitRow store change [] new with provider := provider }) :
    Ran schema row store locked next (store', none) := by
  subst hstore
  refine ⟨⟨h.chained, h.aggregated, h.resolved, h.contributors, h.pending⟩, by simp, Or.inr ⟨?_, Or.inr hholds⟩⟩
  show store.row.version < new.version
  omega

/-- A statement whose writer wrote over what it has read keeps what holds of the store. -/
theorem ran_statement {schema : PayloadSchema Rest} {agentId : String} {row : ConfigRow Rest Skill}
    {store : ConfigStore Inst Call Rest Skill} {locked : Bool} {cipher : EnvEntry → String} (h : StoreOk schema row store)
    {next : ConfigStatement Inst Call Rest Skill} (hnext : NextOk schema store next)
    (hswitch : ∀ target snapshot, next = .switchWrite target snapshot →
      retagRuntimeConfigPayload schema snapshot target = retagRuntimeConfigPayload schema store.row.payload target)
    (hupdate : ∀ commit change validated, next = .updateRow commit change validated → store.row.version = commit.expectedVersion →
      Agree commit.awaiters ∧ ∀ patch provider cipher, change = .patch patch provider cipher → HasFields provider patch)
    {ran : ConfigStore Inst Call Rest Skill × Option (ConfigStatement Inst Call Rest Skill)}
    (hran : runStatement schema agentId store locked cipher next = some ran) : Ran schema row store locked next ran := by
  cases next with
  | flushRead awaiters => exact ran_flushRead h hnext hran
  | readRow commit => exact ran_readRow h hnext hran
  | readProvider commit current => exact ran_readProvider h hnext hran
  | updateRow commit change validated => exact ran_updateRow h hnext (hupdate commit change validated rfl) hran
  | switchRead target =>
    obtain rfl := Option.some.inj hran
    exact Ran.goOn h trivial fun hholds => by cases hholds
  | switchWrite target snapshot =>
    simp only [runStatement] at hran
    split at hran
    · cases hran
    · next hlocked =>
      rw [Bool.not_eq_true] at hlocked
      split at hran
      · next payload hretag =>
        obtain rfl := Option.some.inj hran
        exact Ran.goOn h ⟨rfl, (hswitch target snapshot rfl).symm.trans hretag⟩ fun _ => hlocked
      · obtain rfl := Option.some.inj hran
        exact ⟨h, by simp, Or.inl rfl⟩
  | switchDone target new =>
    obtain rfl := Option.some.inj hran
    exact ran_done (storeOk_commitRow h (.retag target) hnext.1 hnext.2 (by simp)) hnext.1 rfl target rfl
  | bumpWrite =>
    simp only [runStatement] at hran
    split at hran
    · cases hran
    · next hlocked =>
      rw [Bool.not_eq_true] at hlocked
      obtain rfl := Option.some.inj hran
      exact Ran.goOn h rfl fun _ => hlocked
  | bumpDone new =>
    obtain rfl := Option.some.inj hran
    have hnew : new = ⟨store.row.version + 1, store.row.payload⟩ := hnext
    refine ran_done (storeOk_commitRow h .bump ?_ ?_ (by simp)) ?_ rfl store.provider rfl
    · rw [hnew]
    · rw [hnew]
      rfl
    · rw [hnew]

/-! ## One step -/

/-- How often a call waits for an open writer. -/
def jobWeight (id : Call) (e : Sigma fun _ : Nat => ConfigStatement Inst Call Rest Skill) : Nat := waiting id (jobAwaiters e.2)

/-- How often a call waits for the writers that are open. -/
def jobCount (s : ConfigSystem Inst Call Rest Skill) (id : Call) : Nat := AssocList.total (jobWeight id) s.active

omit [DecidableEq Inst] in
/-- The open writers after a step of one of them. -/
theorem jobCount_put (s : ConfigSystem Inst Call Rest Skill) (store : ConfigStore Inst Call Rest Skill) (job : Nat)
    (new : Option (ConfigStatement Inst Call Rest Skill)) (id : Call) :
    jobCount (s.put store job new) id + waiting id ((s.find job).elim [] jobAwaiters) =
      jobCount s id + waiting id (new.elim [] jobAwaiters) := by
  have hweight : AssocList.weightAt (jobWeight id) s.active job = waiting id ((s.find job).elim [] jobAwaiters) := by
    unfold AssocList.weightAt System.find
    cases s.active.lookup job with
    | none => rfl
    | some next => rfl
  cases new with
  | none =>
    have htotal := AssocList.total_erase (jobWeight id) s.active job
    rw [hweight] at htotal
    exact htotal
  | some next =>
    have htotal := AssocList.total_insert (jobWeight id) s.active job next
    rw [hweight] at htotal
    exact htotal

/-- Every call that has begun is at one place: settled, in a pending slot or with a writer. -/
structure Custody (s : ConfigSystem Inst Call Rest Skill) : Prop where
  nodup : (s.store.begun.map (·.id)).Nodup
  count : ∀ id, settledCount s.store id + pendingCount s.store id + jobCount s id = waiting id s.store.begun

omit [DecidableEq Inst] in
/-- A statement of a writer keeps every call at one place. -/
theorem custody_run {s : ConfigSystem Inst Call Rest Skill} (h : Custody s) {job : Nat} {next : ConfigStatement Inst Call Rest Skill}
    (hfind : s.find job = some next) {ran : ConfigStore Inst Call Rest Skill × Option (ConfigStatement Inst Call Rest Skill)}
    (hran : Handled s.store next ran) : Custody (s.put ran.1 job ran.2) where
  nodup := by
    rw [System.store_put, hran.begun]
    exact h.nodup
  count id := by
    have hput := jobCount_put s ran.1 job ran.2 id
    have hcount := h.count id
    have hsettled := hran.settled id
    have hpending := hran.pending id
    rw [hfind, Option.elim_some] at hput
    rw [System.store_put, hran.begun]
    omega

omit [DecidableEq Inst] in
/-- A writer begins for the callers that another place has lost. -/
theorem custody_begin {s s' : ConfigSystem Inst Call Rest Skill} {store : ConfigStore Inst Call Rest Skill} {job : Nat}
    {next : ConfigStatement Inst Call Rest Skill} (hstep : begin s store job next = some s') (hnodup : (store.begun.map (·.id)).Nodup)
    (hcount : ∀ id, settledCount store id + pendingCount store id + jobCount s id + waiting id (jobAwaiters next) =
      waiting id store.begun) : Custody s' := by
  unfold begin at hstep
  split at hstep
  · next hnone =>
    obtain rfl := Option.some.inj hstep
    refine ⟨by rwa [System.store_put], fun id => ?_⟩
    have hput := jobCount_put s store job (some next) id
    have hid := hcount id
    rw [Option.isNone_iff_eq_none.mp hnone, Option.elim_none, Option.elim_some] at hput
    have hnil : waiting id ([] : List (ConfigAwaiter Call)) = 0 := rfl
    rw [System.store_put]
    omega
  · cases hstep

/-- The flush of an instance keeps every call at one place. -/
theorem custody_flushAgent {s s' : ConfigSystem Inst Call Rest Skill} (h : Custody s) {store : ConfigStore Inst Call Rest Skill}
    {i : Inst} {job : Nat} (hstep : flushAgent s store i job = some s') (hbegun : store.begun = s.store.begun)
    (hcount : ∀ id, settledCount store id + pendingCount store id = settledCount s.store id + pendingCount s.store id) :
    Custody s' := by
  unfold flushAgent at hstep
  split at hstep
  · obtain rfl := Option.some.inj hstep
    refine ⟨hbegun ▸ h.nodup, fun id => ?_⟩
    have hid := h.count id
    have hsame := hcount id
    show settledCount store id + pendingCount store id + jobCount s id = waiting id store.begun
    rw [hbegun]
    omega
  · refine custody_begin hstep (hbegun ▸ h.nodup) fun id => ?_
    have hid := h.count id
    have hsame := hcount id
    have hpending : pendingCount (setInstance store i { instanceOf store i with pending := [] }) id +
        waiting id (instanceOf store i).pending = pendingCount store id := pendingCount_setInstance store i _ id
    rw [← hbegun] at hid
    show settledCount store id + pendingCount (setInstance store i { instanceOf store i with pending := [] }) id + jobCount s id +
      waiting id (instanceOf store i).pending = waiting id store.begun
    omega

/-- A call of `update` puts the call at one place. -/
theorem custody_update {schema : PayloadSchema Rest} {agentId : String} {s s' : ConfigSystem Inst Call Rest Skill} (h : Custody s)
    {i : Inst} {job : Nat} {call : ConfigAwaiter Call} (hstep : AgentConfig.step schema agentId s (.update i job call) = some s') :
    Custody s' := by
  simp only [AgentConfig.step] at hstep
  split at hstep
  · cases hstep
  · next hfresh =>
    have hnodup : ((call :: s.store.begun).map (·.id)).Nodup := List.nodup_cons.mpr ⟨hfresh, h.nodup⟩
    have hwaiting : ∀ id, waiting id (call :: s.store.begun) = waiting id s.store.begun + waiting id [call] := by
      intro id
      rw [waiting, ← List.singleton_append, List.countP_append, Nat.add_comm]
      rfl
    split at hstep
    · obtain rfl := Option.some.inj hstep
      refine ⟨hnodup, fun id => ?_⟩
      have hid := h.count id
      have happend : waiting id ((instanceOf s.store i).pending ++ [call]) =
          waiting id (instanceOf s.store i).pending + waiting id [call] :=
        List.countP_append
      have hpending : pendingCount (setInstance s.store i
          { instanceOf s.store i with pending := (instanceOf s.store i).pending ++ [call] }) id +
          waiting id (instanceOf s.store i).pending =
          pendingCount s.store id + (waiting id (instanceOf s.store i).pending + waiting id [call]) :=
        (pendingCount_setInstance s.store i _ id).trans (congrArg (pendingCount s.store id + ·) happend)
      show settledCount s.store id + pendingCount (setInstance s.store i
        { instanceOf s.store i with pending := (instanceOf s.store i).pending ++ [call] }) id + jobCount s id =
        waiting id (call :: s.store.begun)
      rw [hwaiting]
      omega
    · refine custody_begin hstep hnodup fun id => ?_
      have hid := h.count id
      have hpending : pendingCount (setInstance s.store i { instanceOf s.store i with burst := true }) id +
          waiting id (instanceOf s.store i).pending = pendingCount s.store id + waiting id (instanceOf s.store i).pending :=
        pendingCount_setInstance s.store i _ id
      show settledCount s.store id + pendingCount (setInstance s.store i { instanceOf s.store i with burst := true }) id +
        jobCount s id + waiting id [call] = waiting id (call :: s.store.begun)
      rw [hwaiting]
      omega

/-- The writers that may roll back have no callers. -/
theorem rollback_find {schema : PayloadSchema Rest} {agentId : String} {s s' : ConfigSystem Inst Call Rest Skill} {job : Nat}
    (hstep : AgentConfig.step schema agentId s (.rollback job) = some s') :
    ∃ next, s.find job = some next ∧ jobAwaiters next = [] ∧ s' = s.put s.store job none := by
  obtain ⟨next, hfind, hstep⟩ := Option.bind_eq_some_iff.mp hstep
  cases next with
  | flushRead awaiters => cases hstep
  | readRow commit => cases hstep
  | readProvider commit current => cases hstep
  | updateRow commit change validated => cases hstep
  | _ => exact ⟨_, hfind, rfl, (Option.some.inj hstep).symm⟩

/-- Every step keeps every call at one place. -/
theorem custody_step {schema : PayloadSchema Rest} {agentId : String} {s s' : ConfigSystem Inst Call Rest Skill}
    {op : ConfigOp Inst Call} (h : Custody s) (hstep : AgentConfig.step schema agentId s op = some s') : Custody s' := by
  cases op with
  | update i job call => exact custody_update h hstep
  | slotTimer i job =>
    simp only [AgentConfig.step] at hstep
    split at hstep
    · cases hstep
    · exact custody_flushAgent h hstep rfl fun _ => rfl
  | burstTimer i job =>
    simp only [AgentConfig.step] at hstep
    split at hstep
    · cases hstep
    · refine custody_flushAgent h hstep rfl fun id => ?_
      have hpending : pendingCount (setInstance s.store i
          { instanceOf s.store i with burst := false, windows := (instanceOf s.store i).windows - 1 }) id +
          waiting id (instanceOf s.store i).pending = pendingCount s.store id + waiting id (instanceOf s.store i).pending :=
        pendingCount_setInstance s.store i _ id
      exact congrArg (settledCount s.store id + ·) (Nat.add_right_cancel hpending)
  | switchCommit job target =>
    simp only [AgentConfig.step] at hstep
    split at hstep
    · cases hstep
    · exact custody_begin hstep h.nodup h.count
  | bumpVersion job => exact custody_begin hstep h.nodup h.count
  | run job cipher =>
    obtain ⟨next, hfind, hstep⟩ := Option.bind_eq_some_iff.mp hstep
    obtain ⟨ran, hrun, rfl⟩ := Option.map_eq_some_iff.mp hstep
    exact custody_run h hfind (handled_statement hrun)
  | rollback job =>
    obtain ⟨next, hfind, hnone, rfl⟩ := rollback_find hstep
    have hran : Handled s.store next (s.store, none) := ⟨rfl, fun _ => rfl, fun id => by rw [hnone, Option.elim_none]⟩
    exact custody_run h hfind hran

omit [DecidableEq Call] in
/-- A statement of a writer keeps the invariant. -/
theorem sound_run {schema : PayloadSchema Rest} {row : ConfigRow Rest Skill} {s : ConfigSystem Inst Call Rest Skill}
    (h : Sound schema row s) {job : Nat} {next : ConfigStatement Inst Call Rest Skill} (hfind : s.find job = some next)
    {ran : ConfigStore Inst Call Rest Skill × Option (ConfigStatement Inst Call Rest Skill)} (hbegun : ran.1.begun = s.store.begun)
    (hran : Ran schema row s.store ((s.others job).any holdsRow) next ran) : Sound schema row (s.put ran.1 job ran.2) := by
  have hapart : ∀ other ∈ s.others job, holdsRow next = true → holdsRow other = false := by
    intro other hother hholds
    obtain ⟨k, hne, hk⟩ := System.mem_others.mp hother
    exact Bool.eq_false_iff.mpr (h.apart job k next other (Ne.symm hne) hfind hk () hholds)
  have hfree : ∀ other ∈ s.others job, (s.others job).any holdsRow = false → holdsRow other = false := by
    intro other hother hlocked
    exact Bool.eq_false_iff.mpr (List.any_eq_false.mp hlocked other hother)
  refine h.put (fun _ _ hexcl => hexcl.symm) hran.sound (fun n hn => (hran.goesOn n hn).1) (fun other hother hok => ?_)
    fun n hn other hother => ?_
  · rcases hran.written with hsame | ⟨hversion, hholder⟩
    · exact NextOk.of_row hok hsame fun a ha => hbegun ▸ ha
    · refine NextOk.of_write hok ?_ hversion hbegun
      rcases hholder with hlocked | hholds
      · exact hfree other hother hlocked
      · exact hapart other hother hholds
  · intro _ hholds
    exact Bool.eq_false_iff.mp (hfree other hother ((hran.goesOn n hn).2 hholds))

omit [DecidableEq Call] in
/-- A writer that has read nothing begins. -/
theorem sound_begin {schema : PayloadSchema Rest} {row : ConfigRow Rest Skill} {s s' : ConfigSystem Inst Call Rest Skill}
    (h : Sound schema row s) {store : ConfigStore Inst Call Rest Skill} (hstore : StoreOk schema row store)
    (hrow : store.row = s.store.row) (hbegun : ∀ a ∈ s.store.begun, a ∈ store.begun) {job : Nat}
    {next : ConfigStatement Inst Call Rest Skill} (hstep : begin s store job next = some s') (hnext : NextOk schema store next)
    (hholds : holdsRow next = false) : Sound schema row s' := by
  unfold begin at hstep
  split at hstep
  · obtain rfl := Option.some.inj hstep
    refine h.put (fun _ _ hexcl => hexcl.symm) hstore (fun n hn => Option.some.inj hn ▸ hnext) (fun _ _ hok => hok.of_row hrow hbegun)
      fun n hn other _ _ hn' => ?_
    obtain rfl := Option.some.inj hn
    exact absurd hn' (by rw [hholds]; simp)
  · cases hstep

omit [DecidableEq Call] in
/-- The flush of an instance keeps the invariant. -/
theorem sound_flushAgent {schema : PayloadSchema Rest} {row : ConfigRow Rest Skill} {s s' : ConfigSystem Inst Call Rest Skill}
    (h : Sound schema row s) {store : ConfigStore Inst Call Rest Skill} (hstore : StoreOk schema row store)
    (hrow : store.row = s.store.row) (hbegun : ∀ a ∈ s.store.begun, a ∈ store.begun) {i : Inst} {job : Nat}
    (hstep : flushAgent s store i job = some s') : Sound schema row s' := by
  unfold flushAgent at hstep
  split at hstep
  · obtain rfl := Option.some.inj hstep
    exact h.setStore hstore fun _ _ _ hok => hok.of_row hrow hbegun
  · exact sound_begin h (hstore.setInstance i (by simp)) hrow hbegun hstep (hstore.pending i) rfl

omit [DecidableEq Call] in
/-- Another call begins. -/
theorem StoreOk.begin {schema : PayloadSchema Rest} {row : ConfigRow Rest Skill} {store : ConfigStore Inst Call Rest Skill}
    (h : StoreOk schema row store) (call : ConfigAwaiter Call) : StoreOk schema row { store with begun := call :: store.begun } where
  chained := h.chained
  aggregated := h.aggregated
  resolved id config hmem := by
    obtain ⟨w, hw, a, ha, hid, hbegun, hrest⟩ := h.resolved id config hmem
    exact ⟨w, hw, a, ha, hid, List.mem_cons_of_mem _ hbegun, hrest⟩
  contributors := h.contributors
  pending i a ha := List.mem_cons_of_mem _ (h.pending i a ha)

/-- A call of `update` keeps the invariant. -/
theorem sound_update {schema : PayloadSchema Rest} {agentId : String} {row : ConfigRow Rest Skill}
    {s s' : ConfigSystem Inst Call Rest Skill} (h : Sound schema row s) {i : Inst} {job : Nat} {call : ConfigAwaiter Call}
    (hstep : AgentConfig.step schema agentId s (.update i job call) = some s') : Sound schema row s' := by
  simp only [AgentConfig.step] at hstep
  split at hstep
  · cases hstep
  · have hstore := h.store.begin call
    have hmono : ∀ a ∈ s.store.begun, a ∈ call :: s.store.begun := fun a ha => List.mem_cons_of_mem _ ha
    split at hstep
    · obtain rfl := Option.some.inj hstep
      refine h.setStore (hstore.setInstance i fun a ha => ?_) fun _ _ _ hok => hok.of_row rfl hmono
      rcases List.mem_append.mp ha with ha | ha
      · exact hstore.pending i a ha
      · exact List.mem_singleton.mp ha ▸ List.mem_cons_self
    · have hburst : StoreOk schema row (setInstance { s.store with begun := call :: s.store.begun } i
          { instanceOf { s.store with begun := call :: s.store.begun } i with burst := true }) :=
        hstore.setInstance i (hstore.pending i)
      have hcommit : CommitOk (setInstance { s.store with begun := call :: s.store.begun } i
          { instanceOf { s.store with begun := call :: s.store.begun } i with burst := true })
          ⟨[call], call.patch, call.expectedVersion, some i⟩ := by
        refine ⟨fun a ha => ?_, (aggregatePatches_singleton call.patch).symm, fun a ha => ?_⟩
        · rw [List.mem_singleton.mp ha]
        · exact List.mem_singleton.mp ha ▸ List.mem_cons_self
      exact sound_begin h hburst rfl hmono hstep hcommit rfl

/-- A step whose writer writes over what it has read keeps the invariant. -/
theorem sound_step {schema : PayloadSchema Rest} {agentId : String} {row : ConfigRow Rest Skill}
    {s s' : ConfigSystem Inst Call Rest Skill}
    {op : ConfigOp Inst Call} (h : Sound schema row s) (hguard : WritesOver schema s op)
    (hstep : AgentConfig.step schema agentId s op = some s') : Sound schema row s' := by
  cases op with
  | update i job call => exact sound_update h hstep
  | slotTimer i job =>
    simp only [AgentConfig.step] at hstep
    split at hstep
    · cases hstep
    · exact sound_flushAgent h h.store rfl (fun _ ha => ha) hstep
  | burstTimer i job =>
    simp only [AgentConfig.step] at hstep
    split at hstep
    · cases hstep
    · have hreset : StoreOk schema row (setInstance s.store i
          { instanceOf s.store i with burst := false, windows := (instanceOf s.store i).windows - 1 }) :=
        h.store.setInstance i (h.store.pending i)
      exact sound_flushAgent h hreset rfl (fun _ ha => ha) hstep
  | switchCommit job target =>
    simp only [AgentConfig.step] at hstep
    split at hstep
    · cases hstep
    · exact sound_begin h h.store rfl (fun _ ha => ha) hstep trivial rfl
  | bumpVersion job => exact sound_begin h h.store rfl (fun _ ha => ha) hstep trivial rfl
  | run job cipher =>
    obtain ⟨next, hfind, hstep⟩ := Option.bind_eq_some_iff.mp hstep
    obtain ⟨ran, hrun, rfl⟩ := Option.map_eq_some_iff.mp hstep
    have hover := hguard next hfind
    have hran := ran_statement h.store (h.own job next hfind)
      (fun target snapshot heq => by rw [heq] at hover; exact hover)
      (fun commit change validated heq => by rw [heq] at hover; exact hover) hrun
    exact sound_run h hfind (handled_statement hrun).begun hran
  | rollback job =>
    obtain ⟨next, hfind, _, rfl⟩ := rollback_find hstep
    have hran : Ran schema row s.store ((s.others job).any holdsRow) next (s.store, none) := ⟨h.store, by simp, Or.inl rfl⟩
    exact sound_run h hfind rfl hran

/-! ## Calls settle -/

/-- A call that has begun once waits at most once. -/
theorem waiting_le_one {awaiters : List (ConfigAwaiter Call)} (h : (awaiters.map (·.id)).Nodup) (id : Call) :
    waiting id awaiters ≤ 1 := by
  have hcount : waiting id awaiters = (awaiters.map (·.id)).count id := by
    rw [waiting, List.count, List.countP_map]
    exact List.countP_congr fun a _ => by simp
  rw [hcount]
  exact List.nodup_iff_count_le_one.mp h id

/-- A caller in a list waits there. -/
theorem waiting_pos {awaiters : List (ConfigAwaiter Call)} {a : ConfigAwaiter Call} (h : a ∈ awaiters) : 0 < waiting a.id awaiters :=
  List.countP_pos_iff.mpr ⟨a, h, decide_eq_true rfl⟩

omit [DecidableEq Inst] in
/-- A call settles at most once. -/
theorem Custody.once {s : ConfigSystem Inst Call Rest Skill} (h : Custody s) (id : Call) : settledCount s.store id ≤ 1 := by
  have hcount := h.count id
  have hone := waiting_le_one h.nodup id
  omega

omit [DecidableEq Inst] in
/-- A call that settles at most once has one answer. -/
theorem settled_unique {store : ConfigStore Inst Call Rest Skill} {id : Call} (h : settledCount store id ≤ 1)
    {x y : ConfigOutcome Rest Skill} (hx : (id, x) ∈ store.settled) (hy : (id, y) ∈ store.settled) : x = y := by
  unfold settledCount at h
  rw [List.countP_eq_length_filter] at h
  have hmem : ∀ z, (id, z) ∈ store.settled → (id, z) ∈ store.settled.filter fun e => decide (e.1 = id) :=
    fun z hz => List.mem_filter.mpr ⟨hz, decide_eq_true rfl⟩
  cases hl : store.settled.filter fun e => decide (e.1 = id) with
  | nil => exact absurd (hl ▸ hmem x hx) List.not_mem_nil
  | cons e l =>
    rw [hl] at h hmem
    obtain rfl : l = [] := List.eq_nil_of_length_eq_zero (Nat.le_zero.mp (Nat.le_of_succ_le_succ h))
    exact (Prod.mk.inj ((List.mem_singleton.mp (hmem x hx)).trans (List.mem_singleton.mp (hmem y hy)).symm)).2

/-- A call that no writer has and no slot holds is settled. -/
theorem settled_of_rest {s : ConfigSystem Inst Call Rest Skill} (h : Custody s) (hquiet : s.Quiescent)
    (hempty : ∀ i, (instanceOf s.store i).pending = []) {a : ConfigAwaiter Call} (ha : a ∈ s.store.begun) :
    settledCount s.store a.id = 1 := by
  have hjobs : jobCount s a.id = 0 := by
    refine Nat.eq_zero_of_not_pos fun hpos => ?_
    obtain ⟨job, next, hfind, _⟩ := AssocList.exists_of_total_pos _ _ hpos
    exact Option.some_ne_none next (hfind.symm.trans (hquiet job))
  have hpending : pendingCount s.store a.id = 0 := by
    refine Nat.eq_zero_of_not_pos fun hpos => ?_
    obtain ⟨i, new, hfind, hnew⟩ := AssocList.exists_of_total_pos _ _ hpos
    have hslot := hempty i
    rw [instanceOf, hfind, Option.getD_some] at hslot
    rw [hslot] at hnew
    exact absurd hnew (by simp [waiting])
  have hcount := h.count a.id
  have hone := waiting_le_one h.nodup a.id
  have hpos := waiting_pos ha
  omega

/-- How many statements a writer with callers may still run. -/
def stage : ConfigStatement Inst Call Rest Skill → Nat
  | .flushRead _ => 3
  | .readRow _ => 2
  | .readProvider _ _ => 1
  | _ => 0

omit [DecidableEq Call] in
/-- A writer with callers runs its statement while no other holds the row, and comes closer to its end. -/
theorem runStatement_free (schema : PayloadSchema Rest) (agentId : String) (store : ConfigStore Inst Call Rest Skill)
    (cipher : EnvEntry → String) {next : ConfigStatement Inst Call Rest Skill} (h : jobAwaiters next ≠ []) :
    ∃ ran, runStatement schema agentId store false cipher next = some ran ∧ ∀ n, ran.2 = some n → stage n < stage next := by
  cases next with
  | flushRead awaiters =>
    simp only [runStatement]
    split
    · exact ⟨_, rfl, by simp⟩
    · refine ⟨_, rfl, fun n hn => ?_⟩
      dsimp only at hn
      split at hn
      · cases hn
      · exact Option.some.inj hn ▸ Nat.lt_succ_self 2
  | readRow commit =>
    simp only [runStatement]
    split
    · exact ⟨_, rfl, by simp⟩
    · split
      · exact ⟨_, rfl, by simp⟩
      · exact ⟨_, rfl, fun n hn => Option.some.inj hn ▸ Nat.lt_succ_self 1⟩
  | readProvider commit current =>
    simp only [runStatement]
    split
    · exact ⟨_, rfl, by simp⟩
    · exact ⟨_, rfl, fun n hn => Option.some.inj hn ▸ Nat.lt_succ_self 0⟩
  | updateRow commit change validated =>
    simp only [runStatement, Bool.false_eq_true, if_false]
    split
    · exact ⟨_, rfl, by simp⟩
    · exact ⟨_, rfl, by simp⟩
  | _ => exact absurd rfl h

/-- A call that waits for a writer can be settled while no other writer holds the row. -/
theorem settles_free (schema : PayloadSchema Rest) (agentId : String) {id : Call} {job : Nat} (n : Nat) :
    ∀ {s : ConfigSystem Inst Call Rest Skill}, Custody s → ∀ {next}, s.find job = some next → stage next < n →
      0 < waiting id (jobAwaiters next) → (∀ other ∈ s.others job, holdsRow other = false) →
      ∃ ops t, Run (ofPartial (AgentConfig.step schema agentId)) s ops t ∧ settledCount t.store id = 1 := by
  induction n with
  | zero => exact fun _ _ _ hlt => absurd hlt (Nat.not_lt_zero _)
  | succ n ih =>
    intro s h next hfind hstage hwaits hfree
    have hsome : jobAwaiters next ≠ [] := by
      intro hnil
      rw [hnil] at hwaits
      exact absurd hwaits (by simp [waiting])
    obtain ⟨ran, hrun, hcloser⟩ := runStatement_free schema agentId s.store (fun entry => entry.value) hsome
    have hlocked : (s.others job).any holdsRow = false := List.any_eq_false.mpr fun other hother => by simp [hfree other hother]
    have hstep : AgentConfig.step schema agentId s (.run job fun entry => entry.value) = some (s.put ran.1 job ran.2) := by
      simp only [AgentConfig.step]
      rw [hfind, Option.bind_some, hlocked, hrun, Option.map_some]
    have hnext := custody_step h hstep
    have hsettled := (handled_statement hrun).settled id
    by_cases hdone : settledCount (s.put ran.1 job ran.2).store id = 0
    · have hwaits' : 0 < waiting id (ran.2.elim [] jobAwaiters) := by
        rw [System.store_put] at hdone
        omega
      cases hran : ran.2 with
      | none =>
        rw [hran] at hwaits'
        exact absurd hwaits' (by simp [waiting])
      | some m =>
        rw [hran, Option.elim_some] at hwaits'
        have hfind' : (s.put ran.1 job ran.2).find job = some m := by rw [System.find_put, if_pos rfl, hran]
        have hcloser' := hcloser m hran
        obtain ⟨ops, t, hr, ht⟩ := ih hnext hfind' (by omega) hwaits' fun other hother => by
          obtain ⟨k, hne, hk⟩ := System.mem_others.mp hother
          rw [System.find_put, if_neg hne] at hk
          exact hfree other (System.mem_others.mpr ⟨k, hne, hk⟩)
        exact ⟨_, t, (Run.single hstep).append hr, ht⟩
    · have hone := hnext.once id
      exact ⟨_, _, Run.single hstep, by omega⟩

/-- A call that waits for a writer can be settled. -/
theorem settles_open {schema : PayloadSchema Rest} (agentId : String) {row : ConfigRow Rest Skill}
    {s : ConfigSystem Inst Call Rest Skill} (hs : Sound schema row s) (h : Custody s) {id : Call} {job : Nat}
    {next : ConfigStatement Inst Call Rest Skill} (hfind : s.find job = some next) (hwaits : 0 < waiting id (jobAwaiters next)) :
    ∃ ops t, Run (ofPartial (AgentConfig.step schema agentId)) s ops t ∧ settledCount t.store id = 1 := by
  by_cases hfree : ∀ other ∈ s.others job, holdsRow other = false
  · exact settles_free schema agentId _ h hfind (Nat.lt_succ_self _) hwaits hfree
  · -- the one writer that holds the row rolls back
    simp only [not_forall, Bool.not_eq_false] at hfree
    obtain ⟨holder, hmem, hholds⟩ := hfree
    obtain ⟨k, hne, hk⟩ := System.mem_others.mp hmem
    have hstep : AgentConfig.step schema agentId s (.rollback k) = some (s.put s.store k none) := by
      simp only [AgentConfig.step]
      rw [hk, Option.bind_some]
      cases holder with
      | switchDone target new => rfl
      | bumpDone new => rfl
      | _ => cases hholds
    have hfind' : (s.put s.store k none).find job = some next := by rw [System.find_put, if_neg (Ne.symm hne), hfind]
    obtain ⟨ops, t, hr, ht⟩ := settles_free schema agentId _ (custody_step h hstep) hfind' (Nat.lt_succ_self _) hwaits
      fun other hother => by
        obtain ⟨k', _, hk'⟩ := System.mem_others.mp hother
        rw [System.find_put] at hk'
        split at hk'
        · cases hk'
        · next hother' => exact Bool.eq_false_iff.mpr (hs.apart k k' holder other (Ne.symm hother') hk hk' () hholds)
    exact ⟨_, t, (Run.single hstep).append hr, ht⟩

omit [DecidableEq Inst] [DecidableEq Call] in
/-- Some number is not in use. -/
theorem exists_fresh (s : ConfigSystem Inst Call Rest Skill) : ∃ job, s.find job = none := by
  obtain ⟨job, hjob⟩ := Infinite.exists_notMem_finset s.active.keys.toFinset
  refine ⟨job, AList.lookup_eq_none.mpr fun hmem => hjob (List.mem_toFinset.mpr hmem)⟩

/-- A call that has begun can be settled. -/
theorem settles {schema : PayloadSchema Rest} (agentId : String) {row : ConfigRow Rest Skill} {s : ConfigSystem Inst Call Rest Skill}
    (hs : Sound schema row s) (h : Custody s) {a : ConfigAwaiter Call} (ha : a ∈ s.store.begun) :
    ∃ ops t, Run (ofPartial (AgentConfig.step schema agentId)) s ops t ∧ settledCount t.store a.id = 1 := by
  have hcount := h.count a.id
  have hone := waiting_le_one h.nodup a.id
  have hpos := waiting_pos ha
  by_cases hsettled : settledCount s.store a.id = 1
  · exact ⟨[], s, Run.nil s, hsettled⟩
  · by_cases hjobs : 0 < jobCount s a.id
    · obtain ⟨job, next, hfind, hwaits⟩ := AssocList.exists_of_total_pos _ _ hjobs
      exact settles_open agentId hs h hfind hwaits
    · have hpending : 0 < pendingCount s.store a.id := by omega
      obtain ⟨i, new, hfind, hwaits⟩ := AssocList.exists_of_total_pos _ _ hpending
      have hslot : (instanceOf s.store i).pending = new.pending := by rw [instanceOf, hfind, Option.getD_some]
      obtain ⟨job, hfresh⟩ := exists_fresh s
      have hne : (instanceOf s.store i).pending ≠ [] := by
        intro hnil
        rw [hslot] at hnil
        rw [hnil] at hwaits
        exact absurd hwaits (by simp [waiting])
      have hstep : AgentConfig.step schema agentId s (.slotTimer i job) =
          some (s.put (setInstance s.store i { instanceOf s.store i with pending := [] }) job
            (some (.flushRead (instanceOf s.store i).pending))) := by
        simp only [AgentConfig.step, flushAgent, begin]
        rw [if_neg hne, if_neg hne, hfresh, Option.isNone_none, if_pos rfl]
      have hguard : WritesOver schema s (ConfigOp.slotTimer i job : ConfigOp Inst Call) := trivial
      obtain ⟨ops, t, hr, ht⟩ := settles_open agentId (sound_step hs hguard hstep)
        (custody_step h hstep) (by rw [System.find_put, if_pos (rfl : job = job)]) (by rw [← hslot] at hwaits; exact hwaits)
      exact ⟨_, t, (Run.single hstep).append hr, ht⟩

/-- The invariant says that no update is lost. -/
theorem noLostUpdate_of_sound {schema : PayloadSchema Rest} (agentId : String) {row : ConfigRow Rest Skill}
    {s : ConfigSystem Inst Call Rest Skill} (hs : Sound schema row s) (h : Custody s) : NoLostUpdate schema agentId row s where
  chained := hs.store.chained
  aggregated := hs.store.aggregated
  resolved := hs.store.resolved
  rejected id error hmem w hw a ha hid := by
    obtain ⟨config, hconfig⟩ := hs.store.contributors w hw a ha
    rw [hid] at hconfig
    cases settled_unique (h.once id) hmem hconfig
  once := h.once
  atRest hquiet hempty _ ha := settled_of_rest h hquiet hempty ha
  settles _ ha := settles agentId hs h ha

end AgentConfigAux

open AgentConfigAux

/-! ## The result -/

/-- In every run whose writers write over what they have read, and whose callers of one write agree, no update is lost. -/
theorem agent_config_no_lost_update (schema : PayloadSchema Rest) (agentId : String) :
    NeverLosesUpdate schema agentId
      (Guarded (WritesOver schema) (ofPartial fun s : ConfigSystem Inst Call Rest Skill => AgentConfig.step schema agentId s)) := by
  intro row provider ops s h
  have hstore : StoreOk schema row
      { row := row, provider := provider, instances := ∅, begun := [], settled := [], history := [] :
        ConfigStore Inst Call Rest Skill } := by
    refine ⟨rfl, ?_, ?_, ?_, fun i a ha => ?_⟩
    · simp
    · simp
    · simp
    · exact absurd ha (by simp [instanceOf])
  have hsound : Sound schema row s := h.invariant (fun s op s' hs hstep => sound_step hs hstep.1 hstep.2) (Invariant.idle hstore)
  have hcustody : Custody s := h.invariant (fun s op s' hs hstep => custody_step hs hstep.2) ⟨List.nodup_nil, fun _ => rfl⟩
  exact noLostUpdate_of_sound agentId hsound hcustody

namespace AgentConfigExample

/-- A schema that takes every key and leaves the rest. -/
def schema : PayloadSchema Unit := ⟨fun _ => true, some⟩

/-- The config a Claude Code agent begins with. -/
def row : ConfigRow Unit Unit := ⟨1, ⟨.claudeCode, "opus", [], some "", none, (), []⟩⟩

/-- A caller that sets the model. -/
def setsModel (id : Nat) (model : String) (expectedVersion : Nat) : ConfigAwaiter Nat :=
  ⟨id, ⟨some model, none, none, none, false, false⟩, expectedVersion, "u"⟩

/-- The next statement of a writer, where nothing is encrypted. -/
def run (job : Nat) : ConfigOp Nat Nat := .run job (·.value)

/-- A first write opens the window; two callers that have seen it queue in one slot, each with another model; the window closes. -/
def queuedModels : List (ConfigOp Nat Nat) :=
  [.update 0 0 (setsModel 0 "haiku" 1), run 0, run 0, run 0, .update 0 1 (setsModel 1 "sonnet" 2), .update 0 1 (setsModel 2 "opus" 2),
    .burstTimer 0 1, run 1, run 1, run 1, run 1]

/-- Whether the caller of the model `sonnet` was resolved, and each write that carries it stored another model. -/
def sonnetLost (store : ConfigStore Nat Nat Unit Unit) : Bool :=
  (store.settled.any fun e => decide (e.1 = 1) && match e.2 with
    | .resolved _ => true
    | .rejected _ => false) &&
    (store.begun.all fun a => !decide (a.id = 1) || decide (a.patch.model = some "sonnet")) &&
    store.history.all fun w => w.contributors.all fun a => !decide (a.id = 1) || decide (w.after.payload.model ≠ "sonnet")

/-- A caller whose model was lost has no write that carries it. -/
theorem not_noLostUpdate {s : ConfigSystem Nat Nat Unit Unit} (h : sonnetLost s.store = true) :
    ¬ NoLostUpdate schema "a" row s := by
  intro hno
  simp only [sonnetLost, Bool.and_eq_true, List.any_eq_true, List.all_eq_true, Bool.or_eq_true, Bool.not_eq_true', decide_eq_true_eq,
    decide_eq_false_iff_not] at h
  obtain ⟨⟨⟨⟨id, outcome⟩, hmem, rfl, hresolved⟩, hmodel⟩, hwrites⟩ := h
  cases outcome with
  | rejected error => cases hresolved
  | resolved config =>
    obtain ⟨w, hw, a, ha, hid, hbegun, _, _, hcarries⟩ := hno.resolved 1 config hmem
    have hsonnet := (hmodel a hbegun).resolve_left fun hne => hne hid
    exact ((hwrites w hw a ha).resolve_left fun hne => hne hid) (hcarries.model "sonnet" hsonnet)

end AgentConfigExample

open AgentConfigExample in
/-- Two callers of one flush are both resolved, and the model of the first is in no payload. -/
theorem agent_config_model_lost :
    ¬ NeverLosesUpdate schema "a" (ofPartial fun s : ConfigSystem Nat Nat Unit Unit => AgentConfig.step schema "a" s) := by
  intro h
  have hout : (queuedModels.foldlM (AgentConfig.step schema "a") (init row .claudeCode)).map (fun s => sonnetLost s.store) =
      some true := by decide
  obtain ⟨s, hs, hlost⟩ := Option.map_eq_some_iff.mp hout
  exact not_noLostUpdate hlost (h row .claudeCode queuedModels s (Run.of_foldlM hs))

end FirstTree

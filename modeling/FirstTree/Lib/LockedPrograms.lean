import FirstTree.Lib.AssocList
import FirstTree.Lib.Runs
import FirstTree.Lib.Transactions

/-!
# Programs of transactions that hold a lock

A transaction runs a program of statements over one table of rows under primary keys. A statement reads the committed rows with the
transaction's own writes over them, and its writes are seen by the others when the transaction commits. Each transaction first takes a
lock, and no two that are open hold one lock.

The keys of the table are divided between the locks. When every program writes only under keys of its own lock, a transaction that
commits has run, on the rows of its lock, as if alone at the time of its commit; what it has read of other rows may be anything that
was there meanwhile. A specification of a program against such readings therefore holds of every commit of every run.
-/

namespace Transactions

universe u

variable {κ ν ε : Type*} {α β : Type u}

/-- The rows of a table under their primary keys. -/
abbrev Rows (κ ν : Type*) := AList fun _ : κ => ν

/-- A write of one row, or its deletion. -/
abbrev Write (κ ν : Type*) := κ × Option ν

/-- A program: statements that read the rows the transaction sees, write some and go on, to a result or an error. -/
inductive Program (κ ν ε α : Type*) where
  | done (result : α)
  | throws (error : ε)
  | statement (writes : Rows κ ν → List (Write κ ν)) (next : Rows κ ν → Program κ ν ε α)

namespace Program

/-- One program after another. -/
def bind (f : α → Program κ ν ε β) : Program κ ν ε α → Program κ ν ε β
  | .done result => f result
  | .throws error => .throws error
  | .statement writes next => .statement writes fun t => (next t).bind f

instance : Monad (Program κ ν ε) where
  pure := .done
  bind p f := p.bind f

@[simp] theorem pure_eq (a : α) : (pure a : Program κ ν ε α) = .done a := rfl

@[simp] theorem done_bind (a : α) (f : α → Program κ ν ε β) : (.done a : Program κ ν ε α) >>= f = f a := rfl

@[simp] theorem throws_bind (e : ε) (f : α → Program κ ν ε β) : (.throws e : Program κ ν ε α) >>= f = .throws e := rfl

@[simp] theorem statement_bind (w : Rows κ ν → List (Write κ ν)) (n : Rows κ ν → Program κ ν ε α) (f : α → Program κ ν ε β) :
    (.statement w n : Program κ ν ε α) >>= f = .statement w fun t => n t >>= f := rfl

/-- A statement that only reads. -/
def select (f : Rows κ ν → α) : Program κ ν ε α :=
  .statement (fun _ => []) fun t => .done (f t)

/-- A statement that writes, with a result. -/
def mutate (writes : Rows κ ν → List (Write κ ν)) (f : Rows κ ν → α) : Program κ ν ε α :=
  .statement writes fun t => .done (f t)

end Program

/-! ## Writes -/

section Writes

variable [DecidableEq κ]

/-- One write over the rows. -/
def applyWrite (t : Rows κ ν) (w : Write κ ν) : Rows κ ν :=
  match w.2 with
  | some row => t.insert w.1 row
  | none => t.erase w.1

/-- Writes over the rows, the first one first. -/
def applyWrites (t : Rows κ ν) (ws : List (Write κ ν)) : Rows κ ν := ws.foldl applyWrite t

@[simp] theorem applyWrites_nil (t : Rows κ ν) : applyWrites t [] = t := rfl

theorem applyWrites_append (t : Rows κ ν) (ws ws' : List (Write κ ν)) :
    applyWrites t (ws ++ ws') = applyWrites (applyWrites t ws) ws' := List.foldl_append

/-- A key after one write. -/
theorem lookup_applyWrite (t : Rows κ ν) (w : Write κ ν) (k : κ) :
    (applyWrite t w).lookup k = if k = w.1 then w.2 else t.lookup k := by
  obtain ⟨k', new⟩ := w
  by_cases h : k = k'
  · subst h
    cases new with
    | none => simp [applyWrite]
    | some row => simp [applyWrite]
  · cases new with
    | none => simp [applyWrite, AList.lookup_erase_ne h, h]
    | some row => simp [applyWrite, AList.lookup_insert_ne h, h]

/-- Writes elsewhere leave a key. -/
theorem lookup_applyWrites_of_notMem {ws : List (Write κ ν)} {k : κ} (h : ∀ w ∈ ws, w.1 ≠ k) (t : Rows κ ν) :
    (applyWrites t ws).lookup k = t.lookup k := by
  induction ws generalizing t with
  | nil => rfl
  | cons w ws ih =>
    refine (ih (fun w' hw => h w' (List.mem_cons_of_mem _ hw)) (applyWrite t w)).trans ?_
    rw [lookup_applyWrite, if_neg (Ne.symm (h w List.mem_cons_self))]

/-- Writes on rows that agree at a key agree there. -/
theorem lookup_applyWrites_congr {t t' : Rows κ ν} {k : κ} (h : t.lookup k = t'.lookup k) (ws : List (Write κ ν)) :
    (applyWrites t ws).lookup k = (applyWrites t' ws).lookup k := by
  induction ws generalizing t t' with
  | nil => exact h
  | cons w ws ih => exact ih (by rw [lookup_applyWrite, lookup_applyWrite, h])

/-- Rows whose keys meet a condition keep it under writes that meet it. -/
theorem forall_applyWrites {valid : κ → Prop} {t : Rows κ ν} (ht : ∀ k ∈ t, valid k) {ws : List (Write κ ν)}
    (hws : ∀ w ∈ ws, valid w.1) : ∀ k ∈ applyWrites t ws, valid k := by
  induction ws generalizing t with
  | nil => exact ht
  | cons w ws ih =>
    refine ih (fun k hk => ?_) fun w' hw => hws w' (List.mem_cons_of_mem _ hw)
    by_cases hkey : k = w.1
    · exact hkey ▸ hws w List.mem_cons_self
    · rw [← AList.lookup_isSome, lookup_applyWrite, if_neg hkey, AList.lookup_isSome] at hk
      exact ht k hk

end Writes

/-! ## What a program does on the rows of its lock -/

section Executes

variable [DecidableEq κ]

/-- The rows a transaction may see: those of its lock are the committed ones under its own writes, the others may be any. -/
structure Sees (valid mine : κ → Prop) (base : Rows κ ν) (ws : List (Write κ ν)) (t : Rows κ ν) : Prop where
  valid : ∀ k ∈ t, valid k
  same : ∀ k, mine k → t.lookup k = (applyWrites base ws).lookup k

/-- A program that has written `ws` ends with a result, having written `ws'`. -/
inductive Executes (valid mine : κ → Prop) (base : Rows κ ν) :
    List (Write κ ν) → Program κ ν ε α → α → List (Write κ ν) → Prop where
  | done (ws : List (Write κ ν)) (result : α) : Executes valid mine base ws (.done result) result ws
  | statement {ws ws' : List (Write κ ν)} {writes : Rows κ ν → List (Write κ ν)} {next : Rows κ ν → Program κ ν ε α} {result : α}
      {t : Rows κ ν} (hsees : Sees valid mine base ws t) (hnext : Executes valid mine base (ws ++ writes t) (next t) result ws') :
      Executes valid mine base ws (.statement writes next) result ws'

/-- A program writes only rows of its lock, under valid keys, and its results meet a condition. -/
def Confined (valid mine : κ → Prop) (good : α → Prop) : Program κ ν ε α → Prop
  | .done result => good result
  | .throws _ => True
  | .statement writes next => ∀ t : Rows κ ν, (∀ k ∈ t, valid k) →
      (∀ w ∈ writes t, valid w.1 ∧ mine w.1) ∧ Confined valid mine good (next t)

variable {valid mine : κ → Prop}

omit [DecidableEq κ] in
theorem Confined.bind {good : α → Prop} {good' : β → Prop} {p : Program κ ν ε α} (hp : Confined valid mine good p)
    {f : α → Program κ ν ε β} (hf : ∀ a, good a → Confined valid mine good' (f a)) : Confined valid mine good' (p >>= f) := by
  induction p with
  | done result => exact hf result hp
  | throws error => trivial
  | statement writes next ih => exact fun t ht => ⟨(hp t ht).1, ih t (hp t ht).2⟩

omit [DecidableEq κ] in
theorem Confined.select {good : α → Prop} {f : Rows κ ν → α} (h : ∀ t : Rows κ ν, (∀ k ∈ t, valid k) → good (f t)) :
    Confined valid mine good (Program.select f : Program κ ν ε α) :=
  fun t ht => ⟨by simp, h t ht⟩

omit [DecidableEq κ] in
theorem Confined.mutate {good : α → Prop} {writes : Rows κ ν → List (Write κ ν)} {f : Rows κ ν → α}
    (h : ∀ t : Rows κ ν, (∀ k ∈ t, valid k) → (∀ w ∈ writes t, valid w.1 ∧ mine w.1) ∧ good (f t)) :
    Confined valid mine good (Program.mutate writes f : Program κ ν ε α) := h

/-- What a transaction sees does not depend on the rows of other locks. -/
theorem Sees.congr {base base' : Rows κ ν} (h : ∀ k, mine k → base.lookup k = base'.lookup k) {ws : List (Write κ ν)} {t : Rows κ ν}
    (hs : Sees valid mine base ws t) : Sees valid mine base' ws t :=
  ⟨hs.valid, fun k hk => (hs.same k hk).trans (lookup_applyWrites_congr (h k hk) ws)⟩

/-- What a program does on the rows of its lock does not depend on the others. -/
theorem Executes.congr {base base' : Rows κ ν} (h : ∀ k, mine k → base.lookup k = base'.lookup k) {p : Program κ ν ε α} {a : α}
    {ws ws' : List (Write κ ν)} (he : Executes valid mine base ws p a ws') : Executes valid mine base' ws p a ws' := by
  induction he with
  | done ws result => exact .done ws result
  | statement hsees _ ih => exact .statement (hsees.congr h) ih

/-- Every end of a program that has written `ws` meets a condition on its result and its writes. -/
def Ensures (valid mine : κ → Prop) (base : Rows κ ν) (ws : List (Write κ ν)) (p : Program κ ν ε α)
    (post : α → List (Write κ ν) → Prop) : Prop :=
  ∀ a ws', Executes valid mine base ws p a ws' → post a ws'

variable {base : Rows κ ν} {ws : List (Write κ ν)}

theorem Ensures.done {a : α} {post : α → List (Write κ ν) → Prop} (h : post a ws) :
    Ensures valid mine base ws (.done a : Program κ ν ε α) post := by
  intro a' ws' he
  cases he
  exact h

theorem Ensures.throws {e : ε} {post : α → List (Write κ ν) → Prop} :
    Ensures valid mine base ws (.throws e : Program κ ν ε α) post := by
  intro a ws' he
  cases he

theorem Ensures.statement {writes : Rows κ ν → List (Write κ ν)} {next : Rows κ ν → Program κ ν ε α}
    {post : α → List (Write κ ν) → Prop}
    (h : ∀ t, Sees valid mine base ws t → Ensures valid mine base (ws ++ writes t) (next t) post) :
    Ensures valid mine base ws (.statement writes next) post := by
  intro a ws' he
  cases he with
  | statement hsees hnext => exact h _ hsees a ws' hnext

theorem Ensures.mono {p : Program κ ν ε α} {post post' : α → List (Write κ ν) → Prop} (h : Ensures valid mine base ws p post)
    (himp : ∀ a ws', post a ws' → post' a ws') : Ensures valid mine base ws p post' :=
  fun a ws' he => himp a ws' (h a ws' he)

theorem Ensures.any (p : Program κ ν ε α) : Ensures valid mine base ws p fun _ _ => True :=
  fun _ _ _ => trivial

/-- The rule of composition. -/
theorem Ensures.bind {p : Program κ ν ε α} {f : α → Program κ ν ε β} {mid : α → List (Write κ ν) → Prop}
    {post : β → List (Write κ ν) → Prop} (hp : Ensures valid mine base ws p mid)
    (hf : ∀ a ws', mid a ws' → Ensures valid mine base ws' (f a) post) : Ensures valid mine base ws (p >>= f) post := by
  induction p generalizing ws with
  | done result => exact hf result ws (hp result ws (.done ws result))
  | throws error => exact Ensures.throws
  | statement writes next ih =>
    refine Ensures.statement fun t ht => ih t fun a ws' he => hp a ws' (.statement ht he)

/-- The rule of a read. -/
theorem Ensures.select (f : Rows κ ν → α) :
    Ensures valid mine base ws (Program.select f : Program κ ν ε α) fun a ws' =>
      ws' = ws ∧ ∃ t, Sees valid mine base ws t ∧ a = f t :=
  Ensures.statement fun t ht => Ensures.done ⟨List.append_nil ws, t, ht, rfl⟩

/-- The rule of a write. -/
theorem Ensures.mutate (writes : Rows κ ν → List (Write κ ν)) (f : Rows κ ν → α) :
    Ensures valid mine base ws (Program.mutate writes f : Program κ ν ε α) fun a ws' =>
      ∃ t, Sees valid mine base ws t ∧ a = f t ∧ ws' = ws ++ writes t :=
  Ensures.statement fun t ht => Ensures.done ⟨t, ht, rfl, rfl⟩

end Executes

/-! ## The open transactions -/

section System

variable {ι L η : Type*} [DecidableEq κ] [DecidableEq L] [DecidableEq η]

/-- A committed transaction: its call and result, and the rows before and after it. -/
structure Commit (ι κ ν α : Type*) where
  call : ι
  result : α
  before : Rows κ ν
  after : Rows κ ν

/-- The committed rows and the transactions committed, the last one at the end. -/
structure Committed (ι κ ν α : Type*) where
  rows : Rows κ ν
  commits : List (Commit ι κ ν α)

/-- An open transaction: its call, the rest of its program and its own writes. -/
structure Job (ι κ ν ε α : Type*) where
  call : ι
  rest : Program κ ν ε α
  writes : List (Write κ ν)

/-- What can happen: a transaction begins, runs its next statement or commits, or rolls back. -/
inductive JobOp (ι η : Type*) where
  | begin (name : η) (call : ι)
  | run (name : η)
  | rollback (name : η)

variable (lockOf : ι → L) (programOf : ι → Program κ ν ε α)

/-- One step. A transaction begins when its lock is free, and a statement waits for the rows that another transaction has written. -/
def jobStep (s : System (Committed ι κ ν α) η (Job ι κ ν ε α)) : JobOp ι η → Option (System (Committed ι κ ν α) η (Job ι κ ν ε α))
  | .begin name call =>
    if (s.find name).isSome || (s.others name).any fun other => decide (lockOf other.call = lockOf call) then none
    else some (s.put s.store name (some ⟨call, programOf call, []⟩))
  | .run name => (s.find name).bind fun job =>
    match job.rest with
    | .done result =>
      let after := applyWrites s.store.rows job.writes
      some (s.put ⟨after, s.store.commits ++ [⟨job.call, result, s.store.rows, after⟩]⟩ name none)
    | .throws _ => some (s.put s.store name none)
    | .statement writes next =>
      let t := applyWrites s.store.rows job.writes
      if (writes t).any fun w => (s.others name).any fun other => other.writes.any fun w' => decide (w'.1 = w.1) then none
      else some (s.put s.store name (some ⟨job.call, next t, job.writes ++ writes t⟩))
  | .rollback name => (s.find name).map fun _ => s.put s.store name none

variable (valid : κ → Prop) (region : κ → L)

/-- A commit is the end of its program on the rows of its lock, from the rows before it to the rows after it. -/
def CommitOk (e : Commit ι κ ν α) : Prop :=
  (∀ k ∈ e.before, valid k) ∧
    ∃ ws, Executes valid (fun k => region k = lockOf e.call) e.before [] (programOf e.call) e.result ws ∧
      e.after = applyWrites e.before ws

/-- What holds of the committed rows. -/
structure CommittedOk (store : Committed ι κ ν α) : Prop where
  keys : ∀ k ∈ store.rows, valid k
  commits : ∀ e ∈ store.commits, CommitOk lockOf programOf valid region e

/-- What an open transaction has done so far, on the rows of its lock. -/
structure JobOk (store : Committed ι κ ν α) (job : Job ι κ ν ε α) : Prop where
  confined : Confined valid (fun k => region k = lockOf job.call) (fun _ => True) job.rest
  writes : ∀ w ∈ job.writes, valid w.1 ∧ region w.1 = lockOf job.call
  executes : ∀ a ws, Executes valid (fun k => region k = lockOf job.call) store.rows job.writes job.rest a ws →
    Executes valid (fun k => region k = lockOf job.call) store.rows [] (programOf job.call) a ws

variable {lockOf programOf valid region}

omit [DecidableEq L] in
/-- What a transaction has done is not touched by a commit under another lock. -/
theorem JobOk.of_commit {store store' : Committed ι κ ν α} {job : Job ι κ ν ε α} (h : JobOk lockOf programOf valid region store job)
    (hsame : ∀ k, region k = lockOf job.call → store'.rows.lookup k = store.rows.lookup k) :
    JobOk lockOf programOf valid region store' job where
  confined := h.confined
  writes := h.writes
  executes a ws he := (h.executes a ws (he.congr hsame)).congr fun k hk => (hsame k hk).symm

/-- The invariant: open transactions hold different locks. -/
abbrev JobsOk (lockOf : ι → L) (programOf : ι → Program κ ν ε α) (valid : κ → Prop) (region : κ → L)
    (s : System (Committed ι κ ν α) η (Job ι κ ν ε α)) : Prop :=
  Invariant (CommittedOk lockOf programOf valid region) (JobOk lockOf programOf valid region)
    (fun a b => lockOf a.call ≠ lockOf b.call) s

omit [DecidableEq L] in
/-- A commit keeps the invariant. -/
theorem jobsOk_commit {s : System (Committed ι κ ν α) η (Job ι κ ν ε α)} (h : JobsOk lockOf programOf valid region s) {name : η}
    {job : Job ι κ ν ε α} (hfind : s.find name = some job) {result : α} (hdone : job.rest = .done result) :
    JobsOk lockOf programOf valid region
      (s.put ⟨applyWrites s.store.rows job.writes,
        s.store.commits ++ [⟨job.call, result, s.store.rows, applyWrites s.store.rows job.writes⟩]⟩ name none) := by
  have hjob := h.own name job hfind
  refine h.put (fun _ _ hne => hne.symm) ⟨forall_applyWrites h.store.keys fun w hw => (hjob.writes w hw).1, fun e he => ?_⟩ (by simp)
    (fun other hother hok => ?_) (by simp)
  · rcases List.mem_append.mp he with he | he
    · exact h.store.commits e he
    · obtain rfl := List.mem_singleton.mp he
      exact ⟨h.store.keys, job.writes, hjob.executes result job.writes (hdone ▸ .done job.writes result), rfl⟩
  · obtain ⟨name', hne, hfind'⟩ := System.mem_others.mp hother
    have hlocks : lockOf job.call ≠ lockOf other.call := h.apart name name' job other (Ne.symm hne) hfind hfind'
    refine hok.of_commit fun k hk => lookup_applyWrites_of_notMem (fun w hw hkey => ?_) s.store.rows
    exact hlocks ((hjob.writes w hw).2.symm.trans ((congrArg region hkey).trans hk))

omit [DecidableEq L] in
/-- A statement keeps the invariant. -/
theorem jobsOk_statement {s : System (Committed ι κ ν α) η (Job ι κ ν ε α)} (h : JobsOk lockOf programOf valid region s) {name : η}
    {job : Job ι κ ν ε α} (hfind : s.find name = some job) {writes : Rows κ ν → List (Write κ ν)} {next : Rows κ ν → Program κ ν ε α}
    (hrest : job.rest = .statement writes next) :
    JobsOk lockOf programOf valid region
      (s.put s.store name (some ⟨job.call, next (applyWrites s.store.rows job.writes),
        job.writes ++ writes (applyWrites s.store.rows job.writes)⟩)) := by
  have hjob := h.own name job hfind
  have hvalid := forall_applyWrites h.store.keys fun w hw => (hjob.writes w hw).1
  have hconfined : Confined valid (fun k => region k = lockOf job.call) (fun _ => True) (.statement writes next) :=
    hrest ▸ hjob.confined
  obtain ⟨hwrites, hnext⟩ := hconfined _ hvalid
  refine h.put (fun _ _ hne => hne.symm) h.store (fun new hnew => ?_) (fun _ _ hok => hok) fun new hnew other hother => ?_
  · obtain rfl := Option.some.inj hnew
    refine ⟨hnext, fun w hw => ?_, fun a ws he => ?_⟩
    · rcases List.mem_append.mp hw with hw | hw
      · exact hjob.writes w hw
      · exact hwrites w hw
    · exact hjob.executes a ws (hrest ▸ .statement ⟨hvalid, fun _ _ => rfl⟩ he)
  · obtain rfl := Option.some.inj hnew
    obtain ⟨name', hne, hfind'⟩ := System.mem_others.mp hother
    exact h.apart name name' job other (Ne.symm hne) hfind hfind'

omit [DecidableEq L] in
/-- A transaction that ends without a commit keeps the invariant. -/
theorem jobsOk_end {s : System (Committed ι κ ν α) η (Job ι κ ν ε α)} (h : JobsOk lockOf programOf valid region s) (name : η) :
    JobsOk lockOf programOf valid region (s.put s.store name none) :=
  h.put (fun _ _ hne => hne.symm) h.store (by simp) (fun _ _ hok => hok) (by simp)

/-- Every step keeps the invariant. -/
theorem jobsOk_step (hconfined : ∀ call, Confined valid (fun k => region k = lockOf call) (fun _ => True) (programOf call))
    {s s' : System (Committed ι κ ν α) η (Job ι κ ν ε α)} {op : JobOp ι η} (h : JobsOk lockOf programOf valid region s)
    (hstep : jobStep lockOf programOf s op = some s') : JobsOk lockOf programOf valid region s' := by
  cases op with
  | begin name call =>
    simp only [jobStep] at hstep
    split at hstep
    · cases hstep
    · next hfree =>
      obtain rfl := Option.some.inj hstep
      simp only [Bool.or_eq_true, List.any_eq_true, decide_eq_true_eq, not_or, not_exists, not_and] at hfree
      refine h.put (fun _ _ hne => hne.symm) h.store (fun new hnew => ?_) (fun _ _ hok => hok) fun new hnew other hother => ?_
      · obtain rfl := Option.some.inj hnew
        exact ⟨hconfined call, by simp, fun a ws he => he⟩
      · obtain rfl := Option.some.inj hnew
        exact Ne.symm (hfree.2 other hother)
  | run name =>
    obtain ⟨job, hfind, hstep⟩ := Option.bind_eq_some_iff.mp hstep
    split at hstep
    · next result hdone =>
      obtain rfl := Option.some.inj hstep
      exact jobsOk_commit h hfind hdone
    · obtain rfl := Option.some.inj hstep
      exact jobsOk_end h name
    · next writes next hrest =>
      dsimp only at hstep
      split at hstep
      · cases hstep
      · obtain rfl := Option.some.inj hstep
        exact jobsOk_statement h hfind hrest
  | rollback name =>
    obtain ⟨job, _, rfl⟩ := Option.map_eq_some_iff.mp hstep
    exact jobsOk_end h name

/-- In every run of confined programs the committed keys are valid, and every commit is the end of its program on the rows of its
lock. -/
theorem committedOk_of_run (hconfined : ∀ call, Confined valid (fun k => region k = lockOf call) (fun _ => True) (programOf call))
    {s : System (Committed ι κ ν α) η (Job ι κ ν ε α)} {ops : List (JobOp ι η)}
    (hr : Runs.Run (Runs.ofPartial (jobStep lockOf programOf)) (.idle ⟨∅, []⟩) ops s) :
    CommittedOk lockOf programOf valid region s.store := by
  have hinit : CommittedOk lockOf programOf valid region (⟨∅, []⟩ : Committed ι κ ν α) := ⟨by simp, by simp⟩
  have hs : JobsOk lockOf programOf valid region s :=
    hr.invariant (fun _ _ _ h hstep => jobsOk_step hconfined h hstep) (Invariant.idle hinit)
  exact hs.store

end System

end Transactions

import FirstTree.Lib.Runs
import FirstTree.Lib.Transactions

/-!
# Scripts of transactions

A script is what one caller does to a shared store: statements, grouped into transactions. A statement reads the committed store with
the transaction's own writes over it, takes locks on what it finds, and writes; the others see its writes when the transaction
commits, and then its locks are free. A script may run several transactions, one after another, and may be gone after any step.

A discipline says what holds of the committed store, what every commit keeps, and what a lock protects against the commits of
those that hold no lock in conflict with it. A script meets a discipline when each of its commits does its part, from every store
that the others may have left meanwhile. In every run of scripts that meet it the discipline then holds, in any order of their
steps.
-/

namespace Scripts

open Transactions Runs

universe u

variable {σ L ε : Type*} {α β : Type u}

/-- A script: it has ended; or a statement takes locks and writes, by what it sees, and the script goes on by that; or it goes on
one of two ways; or its transaction ends and it goes on with the next one. -/
inductive Script (σ L ε α : Type*) where
  | done (result : Except ε α)
  | statement (locks : σ → List L) (writes : σ → σ → σ) (next : σ → Script σ L ε α)
  | either (next : Bool → Script σ L ε α)
  | commit (next : Script σ L ε α)
  | rollback (next : Script σ L ε α)

namespace Script

/-- What follows a script, by its result or its error. -/
def andThen (f : Except ε α → Script σ L ε β) : Script σ L ε α → Script σ L ε β
  | .done result => f result
  | .statement locks writes next => .statement locks writes fun view => (next view).andThen f
  | .either next => .either fun side => (next side).andThen f
  | .commit next => .commit (next.andThen f)
  | .rollback next => .rollback (next.andThen f)

/-- What follows the result of a script; an error ends the whole. -/
def onOk (f : α → Script σ L ε β) : Except ε α → Script σ L ε β
  | .ok a => f a
  | .error e => .done (.error e)

/-- What follows the error of a script; a result ends the whole. -/
def onError (handler : ε → Script σ L ε α) : Except ε α → Script σ L ε α
  | .ok a => .done (.ok a)
  | .error e => handler e

instance : Monad (Script σ L ε) where
  pure a := .done (.ok a)
  bind p f := p.andThen (onOk f)

instance : MonadExceptOf ε (Script σ L ε) where
  throw e := .done (.error e)
  tryCatch p handler := p.andThen (onError handler)

/-- A statement that takes locks and writes, with a result. -/
def exec (locks : σ → List L) (writes : σ → σ → σ) (f : σ → α) : Script σ L ε α :=
  .statement locks writes fun view => .done (.ok (f view))

/-- A statement that only reads. -/
def read (f : σ → α) : Script σ L ε α :=
  exec (fun _ => []) (fun _ t => t) f

/-- A statement that reads and takes locks on what it finds. -/
def lockAndRead (locks : σ → List L) (f : σ → α) : Script σ L ε α :=
  exec locks (fun _ t => t) f

/-- A check that touches nothing. -/
def check (result : Except ε α) : Script σ L ε α := .done result

/-- It goes well, or it fails with an error. -/
def mayFail (e : ε) : Script σ L ε Unit :=
  .either fun side => .done (if side then .ok () else .error e)

/-- It goes on one of two ways. -/
def choose : Script σ L ε Bool :=
  .either fun side => .done (.ok side)

/-- The end of a transaction: a commit after a result, a rollback after an error. -/
def settle : Except ε α → Script σ L ε α
  | .ok a => .commit (.done (.ok a))
  | .error e => .rollback (.done (.error e))

/-- A transaction. -/
def transaction (body : Script σ L ε α) : Script σ L ε α :=
  body.andThen settle

/-- One script for each element of a list, in order. -/
def forEach {γ : Type*} (body : γ → Script σ L ε Unit) : List γ → Script σ L ε Unit
  | [] => .done (.ok ())
  | c :: cs => (body c).andThen (onOk fun _ => forEach body cs)

end Script

/-! ## Disciplines -/

/-- What holds of the committed store, what every commit keeps, and what a lock protects. -/
structure Discipline (σ L : Type*) where
  Inv : σ → Prop
  Always : σ → σ → Prop
  Protects : L → σ → σ → Prop
  always_refl : ∀ s, Always s s
  always_trans : ∀ s t u, Always s t → Always t u → Always s u
  protects_refl : ∀ l s, Protects l s s
  protects_trans : ∀ l s t u, Protects l s t → Protects l t u → Protects l s u

namespace Discipline

variable (D : Discipline σ L) (conflicts : L → L → Bool)

/-- What a script that holds locks knows of a later store. -/
structure Meanwhile (held : List L) (s t : σ) : Prop where
  inv : D.Inv t
  always : D.Always s t
  protects : ∀ l ∈ held, D.Protects l s t

/-- What a commit under locks does for the others. -/
structure Guarantees (held : List L) (s t : σ) : Prop where
  inv : D.Inv t
  always : D.Always s t
  protects : ∀ l, (∀ h ∈ held, conflicts h l = false) → D.Protects l s t

variable {D conflicts} {held : List L} {s t u : σ}

theorem Meanwhile.refl (h : D.Inv s) : D.Meanwhile held s s where
  inv := h
  always := D.always_refl s
  protects l _ := D.protects_refl l s

theorem Meanwhile.trans (h₁ : D.Meanwhile held s t) (h₂ : D.Meanwhile held t u) : D.Meanwhile held s u where
  inv := h₂.inv
  always := D.always_trans s t u h₁.always h₂.always
  protects l hl := D.protects_trans l s t u (h₁.protects l hl) (h₂.protects l hl)

/-- Fewer locks tell less. -/
theorem Meanwhile.subset {held' : List L} (h : D.Meanwhile held s t) (hsub : held' ⊆ held) : D.Meanwhile held' s t where
  inv := h.inv
  always := h.always
  protects l hl := h.protects l (hsub hl)

/-- A commit that leaves the store as it is does its part. -/
theorem Guarantees.refl (h : D.Inv s) : D.Guarantees conflicts held s s where
  inv := h
  always := D.always_refl s
  protects l _ := D.protects_refl l s

/-- More locks ask for less. -/
theorem Guarantees.mono {held' : List L} (h : D.Guarantees conflicts held s t) (hsub : held ⊆ held') :
    D.Guarantees conflicts held' s t where
  inv := h.inv
  always := h.always
  protects l hl := h.protects l fun l' hl' => hl l' (hsub hl')

end Discipline

/-! ## Scripts that meet a discipline -/

namespace Script

section Meets

variable (D : Discipline σ L) (conflicts : L → L → Bool) (given good : σ → σ → Prop)

/-- From the locks it holds, its own writes and a committed store, every commit of the script that is as given does its part for the
others and is good, whatever the others do meanwhile, and its end meets the postcondition. -/
def Meets (post : Except ε α → List L → (σ → σ) → σ → Prop) : Script σ L ε α → List L → (σ → σ) → σ → Prop
  | .done result, held, own, s => post result held own s
  | .statement locks writes next, held, own, s => ∀ t, D.Meanwhile held s t →
      Meets post (next (own t)) (held ++ locks (own t)) (fun store => writes (own t) (own store)) t
  | .either next, held, own, s => ∀ side, Meets post (next side) held own s
  | .commit next, held, own, s => ∀ t, D.Meanwhile held s t → given t (own t) →
      D.Guarantees conflicts held t (own t) ∧ good t (own t) ∧ Meets post next [] id (own t)
  | .rollback next, _, _, s => Meets post next [] id s

variable {D conflicts given good} {held : List L} {own : σ → σ} {s t : σ}

/-- A script that meets the discipline from a store meets it from a later one. -/
theorem Meets.meanwhile {post : Except ε α → List L → (σ → σ) → σ → Prop}
    (hpost : ∀ r held own s t, post r held own s → D.Meanwhile held s t → post r held own t) {p : Script σ L ε α}
    (h : Meets D conflicts given good post p held own s) (hm : D.Meanwhile held s t) :
    Meets D conflicts given good post p held own t := by
  induction p generalizing held own s t with
  | done result => exact hpost result held own s t h hm
  | statement locks writes next _ => exact fun u hu => h u (hm.trans hu)
  | either next ih => exact fun side => ih side (h side) hm
  | commit next _ => exact fun u hu => h u (hm.trans hu)
  | rollback next ih => exact ih h (hm.subset (List.nil_subset held))

/-- A weaker postcondition. -/
theorem Meets.mono {post post' : Except ε α → List L → (σ → σ) → σ → Prop} {p : Script σ L ε α}
    (h : Meets D conflicts given good post p held own s)
    (himp : ∀ r held own s, post r held own s → post' r held own s) : Meets D conflicts given good post' p held own s := by
  induction p generalizing held own s with
  | done result => exact himp result held own s h
  | statement locks writes next ih => exact fun t ht => ih (own t) (h t ht)
  | either next ih => exact fun side => ih side (h side)
  | commit next ih =>
    intro t ht hgiven
    obtain ⟨hguarantees, hgood, hnext⟩ := h t ht hgiven
    exact ⟨hguarantees, hgood, ih hnext⟩
  | rollback next ih => exact ih h

/-- A stronger condition on the commits. -/
theorem Meets.mono_given {given' : σ → σ → Prop} {post : Except ε α → List L → (σ → σ) → σ → Prop} {p : Script σ L ε α}
    (h : Meets D conflicts given good post p held own s) (himp : ∀ s t, given' s t → given s t) :
    Meets D conflicts given' good post p held own s := by
  induction p generalizing held own s with
  | done result => exact h
  | statement locks writes next ih => exact fun t ht => ih (own t) (h t ht)
  | either next ih => exact fun side => ih side (h side)
  | commit next ih =>
    intro t ht hgiven
    obtain ⟨hguarantees, hgood, hnext⟩ := h t ht (himp t (own t) hgiven)
    exact ⟨hguarantees, hgood, ih hnext⟩
  | rollback next ih => exact ih h

/-- What follows a script is met from its ends. -/
theorem meets_andThen {f : Except ε α → Script σ L ε β} {post : Except ε β → List L → (σ → σ) → σ → Prop} {p : Script σ L ε α} :
    Meets D conflicts given good post (p.andThen f) held own s ↔
      Meets D conflicts given good (fun r held own s => Meets D conflicts given good post (f r) held own s) p held own s := by
  induction p generalizing held own s with
  | done result => exact Iff.rfl
  | statement locks writes next ih => exact forall₂_congr fun t _ => ih (own t)
  | either next ih => exact forall_congr' fun side => ih side
  | commit next ih => exact forall₃_congr fun t _ _ => and_congr_right fun _ => and_congr_right fun _ => ih
  | rollback next ih => exact ih

variable {post : Except ε α → List L → (σ → σ) → σ → Prop}

@[simp] theorem meets_pure {a : α} : Meets D conflicts given good post (pure a : Script σ L ε α) held own s ↔
    post (.ok a) held own s := Iff.rfl

@[simp] theorem meets_throw {e : ε} : Meets D conflicts given good post (throw e : Script σ L ε α) held own s ↔
    post (.error e) held own s := Iff.rfl

@[simp] theorem meets_check {r : Except ε α} : Meets D conflicts given good post (check r : Script σ L ε α) held own s ↔
    post r held own s := Iff.rfl

@[simp] theorem meets_bind {p : Script σ L ε α} {f : α → Script σ L ε β} {post : Except ε β → List L → (σ → σ) → σ → Prop} :
    Meets D conflicts given good post (p >>= f) held own s ↔
      Meets D conflicts given good (fun r held own s => Meets D conflicts given good post (onOk f r) held own s) p held own s :=
  meets_andThen

@[simp] theorem meets_tryCatch {p : Script σ L ε α} {handler : ε → Script σ L ε α} :
    Meets D conflicts given good post (tryCatch p handler : Script σ L ε α) held own s ↔
      Meets D conflicts given good (fun r held own s => Meets D conflicts given good post (onError handler r) held own s)
        p held own s :=
  meets_andThen

@[simp] theorem meets_onOk_ok {a : α} {f : α → Script σ L ε β} {post : Except ε β → List L → (σ → σ) → σ → Prop} :
    Meets D conflicts given good post (onOk f (.ok a)) held own s ↔ Meets D conflicts given good post (f a) held own s := Iff.rfl

@[simp] theorem meets_onOk_error {e : ε} {f : α → Script σ L ε β} {post : Except ε β → List L → (σ → σ) → σ → Prop} :
    Meets D conflicts given good post (onOk f (.error e)) held own s ↔ post (.error e) held own s := Iff.rfl

@[simp] theorem meets_onError_ok {a : α} {handler : ε → Script σ L ε α} :
    Meets D conflicts given good post (onError handler (.ok a)) held own s ↔ post (.ok a) held own s := Iff.rfl

@[simp] theorem meets_onError_error {e : ε} {handler : ε → Script σ L ε α} :
    Meets D conflicts given good post (onError handler (.error e)) held own s ↔
      Meets D conflicts given good post (handler e) held own s := Iff.rfl

@[simp] theorem meets_exec {locks : σ → List L} {writes : σ → σ → σ} {f : σ → α} :
    Meets D conflicts given good post (exec locks writes f : Script σ L ε α) held own s ↔
      ∀ t, D.Meanwhile held s t →
        post (.ok (f (own t))) (held ++ locks (own t)) (fun store => writes (own t) (own store)) t := Iff.rfl

@[simp] theorem meets_read {f : σ → α} : Meets D conflicts given good post (read f : Script σ L ε α) held own s ↔
    ∀ t, D.Meanwhile held s t → post (.ok (f (own t))) held own t := by
  refine forall₂_congr fun t _ => ?_
  show post (.ok (f (own t))) (held ++ []) own t ↔ post (.ok (f (own t))) held own t
  rw [List.append_nil]

@[simp] theorem meets_lockAndRead {locks : σ → List L} {f : σ → α} :
    Meets D conflicts given good post (lockAndRead locks f : Script σ L ε α) held own s ↔
      ∀ t, D.Meanwhile held s t → post (.ok (f (own t))) (held ++ locks (own t)) own t := Iff.rfl

@[simp] theorem meets_mayFail {e : ε} {post : Except ε Unit → List L → (σ → σ) → σ → Prop} :
    Meets D conflicts given good post (mayFail e : Script σ L ε Unit) held own s ↔
      post (.ok ()) held own s ∧ post (.error e) held own s := by
  constructor
  · exact fun h => ⟨h true, h false⟩
  · rintro ⟨hok, herror⟩ (_ | _)
    · exact herror
    · exact hok

@[simp] theorem meets_choose {post : Except ε Bool → List L → (σ → σ) → σ → Prop} :
    Meets D conflicts given good post (choose : Script σ L ε Bool) held own s ↔ ∀ side, post (.ok side) held own s := Iff.rfl

/-- The end of a transaction. -/
def Settled (D : Discipline σ L) (conflicts : L → L → Bool) (given good : σ → σ → Prop)
    (post : Except ε α → List L → (σ → σ) → σ → Prop) : Except ε α → List L → (σ → σ) → σ → Prop
  | .ok a, held, own, s => ∀ t, D.Meanwhile held s t → given t (own t) →
      D.Guarantees conflicts held t (own t) ∧ good t (own t) ∧ post (.ok a) [] id (own t)
  | .error e, _, _, s => post (.error e) [] id s

/-- A transaction is met when its commit does its part and is good. -/
@[simp] theorem meets_transaction {p : Script σ L ε α} :
    Meets D conflicts given good post (transaction p) held own s ↔
      Meets D conflicts given good (Settled D conflicts given good post) p held own s := by
  refine meets_andThen.trans ⟨fun h => h.mono fun r _ _ _ hr => ?_, fun h => h.mono fun r _ _ _ hr => ?_⟩
  · cases r <;> exact hr
  · cases r <;> exact hr

/-- A script for each element of a list, when each keeps an invariant on the elements done. -/
theorem meets_forEach {γ : Type*} {body : γ → Script σ L ε Unit} {post : Except ε Unit → List L → (σ → σ) → σ → Prop}
    {I : List γ → List L → (σ → σ) → σ → Prop} {cs : List γ}
    (hbody : ∀ finished c rest, cs = finished ++ c :: rest → ∀ held own s, I finished held own s →
      Meets D conflicts given good (fun r held own s => match r with
        | .ok _ => I (finished ++ [c]) held own s
        | .error _ => post r held own s) (body c) held own s)
    (hend : ∀ held own s, I cs held own s → post (.ok ()) held own s) (h : I [] held own s) :
    Meets D conflicts given good post (forEach body cs) held own s := by
  suffices hrest : ∀ rest finished, cs = finished ++ rest → ∀ held own s, I finished held own s →
      Meets D conflicts given good post (forEach body rest) held own s from hrest cs [] rfl held own s h
  intro rest
  induction rest with
  | nil =>
    rintro finished rfl held own s h
    rw [List.append_nil] at hend
    exact hend held own s h
  | cons c rest ih =>
    rintro finished hcs held own s h
    refine meets_andThen.mpr ((hbody finished c rest hcs held own s h).mono ?_)
    intro r held own s hr
    cases r with
    | ok _ => exact ih (finished ++ [c]) (hcs.trans (by simp)) held own s hr
    | error e => exact hr

/-- A script for each element of a list, when each starts and ends without a transaction. -/
theorem meets_forEach_idle {γ : Type*} {body : γ → Script σ L ε Unit} {post : Except ε Unit → List L → (σ → σ) → σ →
    Prop} {cs : List γ} (hbody : ∀ c ∈ cs, ∀ s, Meets D conflicts given good (fun r held own s => match r with
      | .ok _ => held = [] ∧ own = id
      | .error _ => post r held own s) (body c) [] id s)
    (hend : ∀ s, post (.ok ()) [] id s) : Meets D conflicts given good post (forEach body cs) [] id s := by
  refine meets_forEach (I := fun _ held own _ => held = [] ∧ own = id) ?_ ?_ ⟨rfl, rfl⟩
  · rintro finished c rest rfl held own s ⟨rfl, rfl⟩
    exact hbody c (List.mem_append_right _ List.mem_cons_self) s
  · rintro held own s ⟨rfl, rfl⟩
    exact hend s

end Meets

end Script

/-! ## Runs of scripts -/

section Runs

variable {ι κ : Type*} [DecidableEq κ]

/-- The script of an open call: the rest of it, the locks it holds, and its writes that are not yet committed. -/
structure Job (ι σ L ε : Type*) where
  call : ι
  rest : Script σ L ε Unit
  held : List L
  own : σ → σ

/-- What can happen: a call begins, the script of a call goes on by one step, on one side where there are two, or it is gone. -/
inductive ScriptOp (ι κ : Type*) where
  | begin (name : κ) (call : ι)
  | run (name : κ) (side : Bool)
  | crash (name : κ)

/-- The scripts in progress on a store. -/
abbrev Running (ι σ L ε κ : Type*) := System σ κ (Job ι σ L ε)

variable (conflicts : L → L → Bool) (scriptOf : ι → Script σ L ε Unit)

/-- Another script holds a lock in conflict with one of these. -/
def blocked (s : Running ι σ L ε κ) (name : κ) (locks : List L) : Bool :=
  (s.others name).any fun other => other.held.any fun h => locks.any fun l => conflicts h l

/-- One step. A statement waits for the locks it takes. -/
def step (s : Running ι σ L ε κ) : ScriptOp ι κ → Option (Running ι σ L ε κ)
  | .begin name call => if (s.find name).isSome then none else some (s.put s.store name (some ⟨call, scriptOf call, [], id⟩))
  | .run name side => (s.find name).bind fun job =>
    match job.rest with
    | .done _ => some (s.put s.store name none)
    | .statement locks writes next =>
      let view := job.own s.store
      if blocked conflicts s name (locks view) then none
      else some (s.put s.store name
        (some ⟨job.call, next view, job.held ++ locks view, fun store => writes view (job.own store)⟩))
    | .either next => some (s.put s.store name (some ⟨job.call, next side, job.held, job.own⟩))
    | .commit next => some (s.put (job.own s.store) name (some ⟨job.call, next, [], id⟩))
    | .rollback next => some (s.put s.store name (some ⟨job.call, next, [], id⟩))
  | .crash name => (s.find name).map fun _ => s.put s.store name none

/-- The call whose transaction a step commits, with the store it leaves. -/
def commitOf (s : Running ι σ L ε κ) : ScriptOp ι κ → Option (ι × σ)
  | .run name _ => (s.find name).bind fun job =>
    match job.rest with
    | .commit _ => some (job.call, job.own s.store)
    | _ => none
  | _ => none

/-- The call whose script a step runs. -/
def callOf (s : Running ι σ L ε κ) : ScriptOp ι κ → Option ι
  | .run name _ => (s.find name).map fun job => job.call
  | _ => none

/-- The calls that begin are allowed, and the commits are as given. -/
structure Admits (allowed : ι → Prop) (given : ι → σ → σ → Prop) (s : Running ι σ L ε κ) (op : ScriptOp ι κ) : Prop where
  begins : ∀ name call, op = .begin name call → allowed call
  commits : ∀ call store, commitOf s op = some (call, store) → given call s.store store

variable {conflicts scriptOf} (D : Discipline σ L) (given good : ι → σ → σ → Prop)

/-- The rest of an open script meets the discipline. -/
def JobOk (conflicts : L → L → Bool) (store : σ) (job : Job ι σ L ε) : Prop :=
  job.rest.Meets D conflicts (given job.call) (good job.call) (fun _ _ _ _ => True) job.held job.own store

/-- No lock of one script is in conflict with a lock of another. -/
def Apart (conflicts : L → L → Bool) (a b : Job ι σ L ε) : Prop :=
  ∀ l ∈ a.held, ∀ l' ∈ b.held, conflicts l l' = false

/-- The invariant of the scripts in progress. -/
abbrev JobsOk (conflicts : L → L → Bool) (s : Running ι σ L ε κ) : Prop :=
  Invariant D.Inv (JobOk D given good conflicts) (Apart conflicts) s

variable {D given good} {allowed : ι → Prop} {s s' : Running ι σ L ε κ} {op : ScriptOp ι κ}

theorem Apart.symm (hsymm : ∀ l l', conflicts l l' = conflicts l' l) {a b : Job ι σ L ε} (h : Apart conflicts a b) :
    Apart conflicts b a := by
  intro l hl l' hl'
  rw [hsymm]
  exact h l' hl' l hl

/-- A script that does not take a lock nor touches the store keeps the invariant. -/
theorem jobsOk_goOn (hsymm : ∀ l l', conflicts l l' = conflicts l' l) (h : JobsOk D given good conflicts s) {name : κ}
    {job : Job ι σ L ε} (hfind : s.find name = some job) {held : List L} (hheld : held ⊆ job.held) {rest : Script σ L ε Unit}
    {own : σ → σ} (hrest : JobOk D given good conflicts s.store ⟨job.call, rest, held, own⟩) :
    JobsOk D given good conflicts (s.put s.store name (some ⟨job.call, rest, held, own⟩)) := by
  refine h.put (fun _ _ => Apart.symm hsymm) h.store (fun new hnew => ?_) (fun _ _ hok => hok) fun new hnew other hother => ?_
  · obtain rfl := Option.some.inj hnew
    exact hrest
  · obtain rfl := Option.some.inj hnew
    obtain ⟨name', hne, hfind'⟩ := System.mem_others.mp hother
    exact fun l hl => h.apart name name' job other (Ne.symm hne) hfind hfind' l (hheld hl)

/-- A script that ends without a commit keeps the invariant. -/
theorem jobsOk_end (hsymm : ∀ l l', conflicts l l' = conflicts l' l) (h : JobsOk D given good conflicts s) (name : κ) :
    JobsOk D given good conflicts (s.put s.store name none) :=
  h.put (fun _ _ => Apart.symm hsymm) h.store (by simp) (fun _ _ hok => hok) (by simp)

/-- A statement that waits for its locks keeps the invariant. -/
theorem jobsOk_statement (hsymm : ∀ l l', conflicts l l' = conflicts l' l) (h : JobsOk D given good conflicts s) {name : κ}
    {job : Job ι σ L ε} (hfind : s.find name = some job) {locks : σ → List L} {writes : σ → σ → σ} {next : σ → Script σ L ε Unit}
    (hrest : job.rest = .statement locks writes next)
    (hfree : ¬ blocked conflicts s name (locks (job.own s.store)) = true) :
    JobsOk D given good conflicts (s.put s.store name
      (some ⟨job.call, next (job.own s.store), job.held ++ locks (job.own s.store),
        fun store => writes (job.own s.store) (job.own store)⟩)) := by
  have hjob : Script.Meets D conflicts (given job.call) (good job.call) (fun _ _ _ _ => True) job.rest job.held job.own s.store :=
    h.own name job hfind
  rw [hrest] at hjob
  refine h.put (fun _ _ => Apart.symm hsymm) h.store (fun new hnew => ?_) (fun _ _ hok => hok) fun new hnew other hother => ?_
  · obtain rfl := Option.some.inj hnew
    exact hjob s.store (.refl h.store)
  · obtain rfl := Option.some.inj hnew
    obtain ⟨name', hne, hfind'⟩ := System.mem_others.mp hother
    intro l hl l' hl'
    rcases List.mem_append.mp hl with hl | hl
    · exact h.apart name name' job other (Ne.symm hne) hfind hfind' l hl l' hl'
    · rw [hsymm, ← Bool.not_eq_true]
      intro hconflict
      exact hfree (List.any_eq_true.mpr ⟨other, hother, List.any_eq_true.mpr ⟨l', hl', List.any_eq_true.mpr ⟨l, hl, hconflict⟩⟩⟩)

/-- A commit that is as given keeps the invariant and is good. -/
theorem jobsOk_commit (hsymm : ∀ l l', conflicts l l' = conflicts l' l) (h : JobsOk D given good conflicts s) {name : κ}
    {job : Job ι σ L ε} (hfind : s.find name = some job) {next : Script σ L ε Unit} (hrest : job.rest = .commit next)
    (hgiven : given job.call s.store (job.own s.store)) :
    JobsOk D given good conflicts (s.put (job.own s.store) name (some ⟨job.call, next, [], id⟩)) ∧
      good job.call s.store (job.own s.store) := by
  have hjob : Script.Meets D conflicts (given job.call) (good job.call) (fun _ _ _ _ => True) job.rest job.held job.own s.store :=
    h.own name job hfind
  rw [hrest] at hjob
  obtain ⟨hguarantees, hgood, hnext⟩ := hjob s.store (.refl h.store) hgiven
  refine ⟨h.put (fun _ _ => Apart.symm hsymm) hguarantees.inv (fun new hnew => ?_) (fun other hother hok => ?_)
    fun new hnew other hother => ?_, hgood⟩
  · obtain rfl := Option.some.inj hnew
    exact hnext
  · obtain ⟨name', hne, hfind'⟩ := System.mem_others.mp hother
    have hapart := h.apart name name' job other (Ne.symm hne) hfind hfind'
    exact hok.meanwhile (fun _ _ _ _ _ hpost _ => hpost)
      ⟨hguarantees.inv, hguarantees.always, fun l hl => hguarantees.protects l fun l' hl' => hapart l' hl' l hl⟩
  · obtain rfl := Option.some.inj hnew
    exact fun l hl => absurd hl List.not_mem_nil

/-- Every admitted step keeps the invariant, and what it commits is good. -/
theorem jobsOk_step (hsymm : ∀ l l', conflicts l l' = conflicts l' l)
    (hmeets : ∀ call, allowed call → ∀ s, D.Inv s →
      (scriptOf call).Meets D conflicts (given call) (good call) (fun _ _ _ _ => True) [] id s)
    (h : JobsOk D given good conflicts s) (hadmits : Admits allowed given s op) (hstep : step conflicts scriptOf s op = some s') :
    JobsOk D given good conflicts s' ∧
      ∀ call store, commitOf s op = some (call, store) → s'.store = store ∧ good call s.store store := by
  cases op with
  | begin name call =>
    simp only [step] at hstep
    split at hstep
    · cases hstep
    · obtain rfl := Option.some.inj hstep
      refine ⟨h.put (fun _ _ => Apart.symm hsymm) h.store (fun new hnew => ?_) (fun _ _ hok => hok) fun new hnew other _ => ?_,
        fun _ _ hcommit => by cases hcommit⟩
      · obtain rfl := Option.some.inj hnew
        exact hmeets call (hadmits.begins name call rfl) s.store h.store
      · obtain rfl := Option.some.inj hnew
        exact fun l hl => absurd hl List.not_mem_nil
  | crash name =>
    obtain ⟨job, _, rfl⟩ := Option.map_eq_some_iff.mp hstep
    exact ⟨jobsOk_end hsymm h name, fun _ _ hcommit => by cases hcommit⟩
  | run name side =>
    obtain ⟨job, hfind, hstep⟩ := Option.bind_eq_some_iff.mp hstep
    have hown : Script.Meets D conflicts (given job.call) (good job.call) (fun _ _ _ _ => True) job.rest job.held job.own s.store :=
      h.own name job hfind
    have hcommitOf : ∀ call store, commitOf s (.run name side) = some (call, store) →
        ∃ next, job.rest = .commit next ∧ job.call = call ∧ job.own s.store = store := by
      intro call store hcommit
      simp only [commitOf, hfind, Option.bind_some] at hcommit
      split at hcommit
      · next next hrest =>
        obtain ⟨rfl, rfl⟩ := Prod.mk.inj (Option.some.inj hcommit)
        exact ⟨next, hrest, rfl, rfl⟩
      · cases hcommit
    split at hstep
    · next result hrest =>
      obtain rfl := Option.some.inj hstep
      refine ⟨jobsOk_end hsymm h name, fun call store hcommit => ?_⟩
      obtain ⟨next, hrest', _⟩ := hcommitOf call store hcommit
      rw [hrest] at hrest'
      cases hrest'
    · next locks writes next hrest =>
      dsimp only at hstep
      split at hstep
      · cases hstep
      · next hfree =>
        obtain rfl := Option.some.inj hstep
        refine ⟨jobsOk_statement hsymm h hfind hrest hfree, fun call store hcommit => ?_⟩
        obtain ⟨next', hrest', _⟩ := hcommitOf call store hcommit
        rw [hrest] at hrest'
        cases hrest'
    · next next hrest =>
      obtain rfl := Option.some.inj hstep
      refine ⟨jobsOk_goOn hsymm h hfind (List.Subset.refl _) ?_, fun call store hcommit => ?_⟩
      · rw [hrest] at hown
        exact hown side
      · obtain ⟨next', hrest', _⟩ := hcommitOf call store hcommit
        rw [hrest] at hrest'
        cases hrest'
    · next next hrest =>
      obtain rfl := Option.some.inj hstep
      have hgiven := hadmits.commits job.call (job.own s.store) (by simp [commitOf, hfind, hrest])
      obtain ⟨hjobs, hgood⟩ := jobsOk_commit hsymm h hfind hrest hgiven
      refine ⟨hjobs, fun call store hcommit => ?_⟩
      obtain ⟨_, _, rfl, rfl⟩ := hcommitOf call store hcommit
      exact ⟨System.store_put s _ name _, hgood⟩
    · next next hrest =>
      obtain rfl := Option.some.inj hstep
      refine ⟨jobsOk_goOn hsymm h hfind (List.nil_subset _) ?_, fun call store hcommit => ?_⟩
      · rw [hrest] at hown
        exact hown
      · obtain ⟨next', hrest', _⟩ := hcommitOf call store hcommit
        rw [hrest] at hrest'
        cases hrest'

/-- A step that commits nothing leaves the store as it is. -/
theorem store_of_step (hstep : step conflicts scriptOf s op = some s') (hcommit : commitOf s op = none) : s'.store = s.store := by
  cases op with
  | begin name call =>
    simp only [step] at hstep
    split at hstep
    · cases hstep
    · obtain rfl := Option.some.inj hstep
      exact System.store_put s s.store name _
  | crash name =>
    obtain ⟨job, _, rfl⟩ := Option.map_eq_some_iff.mp hstep
    exact System.store_put s s.store name _
  | run name side =>
    obtain ⟨job, hfind, hstep⟩ := Option.bind_eq_some_iff.mp hstep
    simp only [commitOf, hfind, Option.bind_some] at hcommit
    split at hstep
    · obtain rfl := Option.some.inj hstep
      exact System.store_put s s.store name _
    · dsimp only at hstep
      split at hstep
      · cases hstep
      · obtain rfl := Option.some.inj hstep
        exact System.store_put s s.store name _
    · obtain rfl := Option.some.inj hstep
      exact System.store_put s s.store name _
    · next next hrest =>
      rw [hrest] at hcommit
      cases hcommit
    · obtain rfl := Option.some.inj hstep
      exact System.store_put s s.store name _

/-- In every run of admitted steps from a store where the discipline's invariant holds, the invariant of the scripts holds. -/
theorem jobsOk_of_run (hsymm : ∀ l l', conflicts l l' = conflicts l' l)
    (hmeets : ∀ call, allowed call → ∀ s, D.Inv s →
      (scriptOf call).Meets D conflicts (given call) (good call) (fun _ _ _ _ => True) [] id s)
    {store : σ} (hstore : D.Inv store) {ops : List (ScriptOp ι κ)}
    (hr : Run (Guarded (Admits allowed given) (ofPartial (step conflicts scriptOf))) (.idle store) ops s) :
    JobsOk D given good conflicts s :=
  hr.invariant (fun _ _ _ h hstep => (jobsOk_step hsymm hmeets h hstep.1 hstep.2).1) (Invariant.idle hstore)

/-- A guarded run whose calls are allowed is a run of admitted steps, when the guard says that the commits are as given. -/
theorem admitted_of_guarded {guard : Running ι σ L ε κ → ScriptOp ι κ → Prop} {s₀ : Running ι σ L ε κ} {ops : List (ScriptOp ι κ)}
    (hallowed : ∀ name call, .begin name call ∈ ops → allowed call)
    (hgiven : ∀ s op call store, guard s op → commitOf s op = some (call, store) → given call s.store store)
    (hr : Run (Guarded guard (ofPartial (step conflicts scriptOf))) s₀ ops s) :
    Run (Guarded (Admits allowed given) (ofPartial (step conflicts scriptOf))) s₀ ops s := by
  induction hr with
  | nil => exact .nil _
  | snoc _ hstep ih =>
    refine .snoc (ih fun name call hmem => hallowed name call (List.mem_append_left _ hmem)) ⟨⟨fun name call hop => ?_, ?_⟩, hstep.2⟩
    · exact hallowed name call (List.mem_append_right _ (List.mem_singleton.mpr hop.symm))
    · exact fun call store hcommit => hgiven _ _ call store hstep.1 hcommit

/-- A run whose calls are allowed is a run of admitted steps when the commits are as given in any case. -/
theorem admitted_of_run {s₀ : Running ι σ L ε κ} {ops : List (ScriptOp ι κ)}
    (hallowed : ∀ name call, .begin name call ∈ ops → allowed call)
    (hgiven : ∀ call s t, given call s t) (hr : Run (ofPartial (step conflicts scriptOf)) s₀ ops s) :
    Run (Guarded (Admits allowed given) (ofPartial (step conflicts scriptOf))) s₀ ops s :=
  admitted_of_guarded hallowed (fun _ _ _ _ (_ : True) _ => hgiven _ _ _) (hr.mono fun _ _ _ h => ⟨trivial, h⟩)

/-- A step that runs no script leaves the store as it is. -/
theorem store_of_callOf_eq_none (hstep : step conflicts scriptOf s op = some s') (hcall : callOf s op = none) :
    s'.store = s.store := by
  refine store_of_step hstep ?_
  cases op with
  | begin name call => rfl
  | crash name => rfl
  | run name side =>
    simp only [callOf, Option.map_eq_none_iff] at hcall
    simp [commitOf, hcall]

/-- A step commits for the call whose script it runs. -/
theorem callOf_of_commitOf {call : ι} {store : σ} (hcommit : commitOf s op = some (call, store)) : callOf s op = some call := by
  cases op with
  | begin name call => cases hcommit
  | crash name => cases hcommit
  | run name side =>
    obtain ⟨job, hfind, hjob⟩ := Option.bind_eq_some_iff.mp hcommit
    simp only [callOf, hfind, Option.map_some]
    split at hjob
    · exact congrArg (fun committed => some committed.1) (Option.some.inj hjob)
    · cases hjob

/-- Every step that runs a script of a call after such a run, with its commit as given, is good, when a step without a commit is. -/
theorem good_of_run (hsymm : ∀ l l', conflicts l l' = conflicts l' l)
    (hmeets : ∀ call, allowed call → ∀ s, D.Inv s →
      (scriptOf call).Meets D conflicts (given call) (good call) (fun _ _ _ _ => True) [] id s)
    (hrefl : ∀ call s, good call s s) {store : σ} (hstore : D.Inv store) {ops : List (ScriptOp ι κ)}
    (hr : Run (Guarded (Admits allowed given) (ofPartial (step conflicts scriptOf))) (.idle store) ops s)
    (hgiven : ∀ call store, commitOf s op = some (call, store) → given call s.store store)
    (hstep : step conflicts scriptOf s op = some s') {call : ι} (hcall : callOf s op = some call) : good call s.store s'.store := by
  have hok : JobsOk D given good conflicts s := jobsOk_of_run hsymm hmeets hstore hr
  cases hcommit : commitOf s op with
  | none =>
    rw [store_of_step hstep hcommit]
    exact hrefl call s.store
  | some committed =>
    obtain ⟨call', store'⟩ := committed
    have hadmits : Admits allowed given s op := by
      refine ⟨fun name call h => ?_, hgiven⟩
      rw [h] at hcommit
      cases hcommit
    obtain rfl := Option.some.inj ((callOf_of_commitOf hcommit).symm.trans hcall)
    obtain ⟨hstore', hgood⟩ := (jobsOk_step hsymm hmeets hok hadmits hstep).2 _ _ hcommit
    rw [hstore']
    exact hgood

end Runs

end Scripts

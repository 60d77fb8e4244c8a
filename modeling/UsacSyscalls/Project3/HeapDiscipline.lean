import UsacSyscalls.Project3.HeapProtocol

/-!
Contract: the four memory-limit syscalls keep to the list protocol.

Owns the rules of the protocol for the operations and loops of the calls, and
what each call has come to when it returns, in terms of what its caller knows
of the list: it answers as an uninterrupted call does on the contents the list
had when the walk began.

Does not own the interleaving of callers, which is `HeapInterleaving`.
-/

set_option autoImplicit false

namespace UsacSyscalls.Project3

open UsacSyscalls.Foundation
open UsacSyscalls.Foundation.Protocol
open UsacSyscalls.Kernel

/-! ### Rules -/

section Rules

variable {env : HeapEnvironment} {admits : MemoryLimitationEntry → Prop} {known : Knowledge}

abbrev Follows {α : Type} (env : HeapEnvironment) (admits : MemoryLimitationEntry → Prop)
    (call : HeapCall α) (post : α → Knowledge → Prop) (known : Knowledge) : Prop :=
  (listProtocol env admits).Keeps call post known

theorem follows_onHeap {α : Type} {call : Syscall α} (within : Program.Within Plain call)
    {post : α → Knowledge → Prop} (outside : known.own.target = none)
    (holds : post (complete env.toEnvironment call (.boot known.user)).1
      { known with user := (complete env.toEnvironment call (.boot known.user)).2.user }) :
    Follows env admits (onHeap call) post known := by
  induction call generalizing known with
  | pure value => exact holds
  | request operation rest inductionHypothesis =>
      refine ⟨⟨within.1, Or.inl outside⟩, ?_⟩
      rintro reply after ⟨rfl, rfl⟩
      apply inductionHypothesis _ (within.2 _)
      · exact outside
      · have same := kernel_plain within.1 env.toEnvironment known.user
        show post (complete env.toEnvironment (rest _) (.boot _)).1
          { known with user := (complete env.toEnvironment (rest _) (.boot _)).2.user }
        rw [← same]
        exact holds

variable {cell : Cell} {rest : List Cell}

theorem follows_loadNext_shared {post : Link → Knowledge → Prop} (outside : known.own.target = none)
    (holds : ∀ cells, post (linkOf cells) (known.observe cells)) :
    Follows env admits (loadNext (.head .shared)) post known := by
  refine keeps_perform ⟨trivial, Or.inl outside⟩ ?_
  rintro reply after ⟨cells, rfl, rfl⟩
  exact holds cells

theorem follows_loadNext_static (list : ListHead) (static : list ≠ .shared)
    {post : Link → Knowledge → Prop} (outside : known.own.target = none)
    (holds : post (.head list) known) : Follows env admits (loadNext (.head list)) post known := by
  refine keeps_perform ⟨trivial, Or.inl outside⟩ ?_
  cases list with
  | shared => exact absurd rfl static
  | updateStatic =>
      rintro reply after ⟨rfl, rfl⟩
      exact holds
  | removeStatic =>
      rintro reply after ⟨rfl, rfl⟩
      exact holds

theorem follows_loadNext_entry (walking : known.ahead = cell :: rest)
    {post : Link → Knowledge → Prop} (outside : known.own.target = none)
    (holds : post (linkOf rest) { known with ahead := rest }) :
    Follows env admits (loadNext (.entry cell.1)) post known := by
  refine keeps_perform ⟨⟨cell, rest, walking, rfl⟩, Or.inl outside⟩ ?_
  rintro reply after ⟨rfl, rfl⟩
  rw [walking]
  exact holds

theorem follows_entryPid (walking : known.ahead = cell :: rest)
    {post : PidT → Knowledge → Prop} (outside : known.own.target = none)
    (holds : post cell.2.pid known) : Follows env admits (entryPid (.entry cell.1)) post known := by
  refine keeps_perform ⟨⟨cell, rest, walking, rfl⟩, Or.inl outside⟩ ?_
  rintro reply after ⟨read, rfl⟩
  rw [read cell rest walking]
  exact holds

theorem follows_entryMemoryLimit (walking : known.ahead = cell :: rest)
    {post : SizeT → Knowledge → Prop} (outside : known.own.target = none)
    (holds : post cell.2.memoryLimit known) :
    Follows env admits (entryMemoryLimit (.entry cell.1)) post known := by
  refine keeps_perform ⟨⟨cell, rest, walking, rfl⟩, Or.inl outside⟩ ?_
  rintro reply after ⟨read, rfl⟩
  rw [read cell rest walking]
  exact holds

/-- What one iteration has to come to: an exit in `post`, or the start of the
next one. -/
def Iterated {σ ρ : Type} (post : Option (Except ρ σ) → Knowledge → Prop)
    (again : σ → Knowledge → Prop) (cell : Cell) (rest : List Cell) :
    Except ρ σ → Knowledge → Prop
  | .error exit, after => post (some (.error exit)) after
  | .ok kept, after => after.own.target = none ∧ after.ahead = cell :: rest ∧
      again kept { after with ahead := rest }

/-- Loop rule for walks of the shared list. `holds fuel cells` is what holds
before the iteration for the first of `cells`. -/
theorem follows_forEach {σ ρ : Type} {body : Link → σ → HeapCall (Except ρ σ)}
    {post : Option (Except ρ σ) → Knowledge → Prop}
    (holds : Nat → List Cell → σ → Knowledge → Prop)
    (runsOut : ∀ {cells carried known}, holds 0 cells carried known → post none known)
    (ends : ∀ {fuel carried known}, holds (fuel + 1) [] carried known →
      post (some (.ok carried)) known)
    (iterates : ∀ {fuel cell rest carried known}, holds (fuel + 1) (cell :: rest) carried known →
      Follows env admits (body (.entry cell.1) carried)
        (Iterated post (holds fuel rest) cell rest) known)
    {fuel : Nat} {cells : List Cell} {carried : σ} (start : holds fuel cells carried known) :
    Follows env admits (listForEachEntry (.head .shared) body fuel (linkOf cells) carried) post
      known := by
  induction fuel generalizing cells carried known with
  | zero => exact runsOut start
  | succ fuel inductionHypothesis =>
      unfold listForEachEntry
      cases cells with
      | nil =>
          rw [linkOf_nil, if_pos rfl]
          exact ends start
      | cons cell rest =>
          have notHead : Link.entry cell.1 ≠ .head .shared := by
            intro same
            cases same
          rw [linkOf_cons, if_neg notHead]
          apply keeps_bind
          refine (iterates start).mono ?_
          intro result after reached
          cases result with
          | error exit => exact reached
          | ok kept =>
              obtain ⟨outside, walking, again⟩ := reached
              apply keeps_bind
              exact follows_loadNext_entry walking outside (inductionHypothesis again)

end Rules

/-! ### The loops of the calls -/

section Loops

variable {env : HeapEnvironment} {admits : MemoryLimitationEntry → Prop} {known : Knowledge}

theorem follows_putTaskStruct (task : TaskRef) {post : Unit → Knowledge → Prop}
    (outside : known.own.target = none) (holds : post () known) :
    Follows env admits (onHeap (putTaskStruct task)) post known := by
  have plain : Program.Within Plain (putTaskStruct task) := Program.within_perform trivial
  exact follows_onHeap plain outside holds

/-- What the duplicate search can end in. -/
def Searched (fuel : Nat) (entries : List MemoryLimitationEntry) (processPid : PidT) :
    Option (Except Int Unit) → Prop
  | none => fuel ≤ entries.length
  | some (.error code) => code = -101 ∧ Listed entries processPid
  | some (.ok _) => ¬ Listed entries processPid

theorem follows_duplicateSearch (processPid : PidT) (task : TaskRef) (fuel : Nat)
    (outside : known.own.target = none) :
    Follows env admits
      (listForEachEntry (.head .shared) (atPid processPid (rejectDuplicate task)) fuel
        (linkOf known.ahead) ())
      (fun result after => (∃ rest, after = { known with ahead := rest }) ∧
        Searched fuel (known.ahead.map Prod.snd) processPid result) known := by
  let entries := known.ahead.map Prod.snd
  -- the walk has passed no entry with the pid, and one unit of fuel per entry
  let holds : Nat → List Cell → Unit → Knowledge → Prop := fun left cells _ now =>
    now = { known with ahead := cells } ∧ fuel + cells.length = left + entries.length ∧
      (Listed (cells.map Prod.snd) processPid ↔ Listed entries processPid)
  refine follows_forEach holds ?_ ?_ ?_ ⟨rfl, by simp [entries], Iff.rfl⟩
  · rintro cells carried now ⟨rfl, consumed, _⟩
    refine ⟨⟨cells, rfl⟩, ?_⟩
    show fuel ≤ entries.length
    omega
  · rintro left carried now ⟨rfl, _, same⟩
    refine ⟨⟨[], rfl⟩, ?_⟩
    exact fun listed => List.not_mem_nil (same.mpr listed)
  · rintro left cell rest carried now ⟨rfl, consumed, same⟩
    apply keeps_bind
    refine follows_entryPid rfl outside ?_
    by_cases found : cell.2.pid = processPid
    · rw [if_pos found]
      apply keeps_bind
      apply keeps_bind
      refine follows_putTaskStruct task outside ⟨⟨_, rfl⟩, rfl, same.mp ?_⟩
      exact List.mem_cons.mpr (Or.inl found.symm)
    · rw [if_neg found]
      refine ⟨outside, rfl, rfl, ?_, ?_⟩
      · rw [List.length_cons] at consumed
        omega
      · rw [← same]
        simp [Listed, Ne.symm found]

/-- What the copy loop can end in, against the loop over the list contents. -/
def Copied (fuel : Nat) (known : Knowledge) (whole : Except Int SizeT × Machine) :
    Option (Except (Except Int SizeT) (SizeT × ByteMemory)) → Knowledge → Prop
  | none, after => fuel ≤ known.ahead.length ∧
      ∃ rest user, after = { known with ahead := rest, user := user }
  | some exit, after => afterLoop exit = whole.1 ∧
      ∃ rest, after = { known with ahead := rest, user := whole.2.user }

/-- The copy loop ends as the loop over the list contents does. -/
theorem follows_copyLoop (buffer : Nat) (maxEntries : SizeT) (tmp : ByteMemory) (fuel : Nat)
    (outside : known.own.target = none) :
    Follows env admits
      (listForEachEntry (.head .shared) (copyEntry buffer maxEntries) fuel (linkOf known.ahead)
        (0, tmp))
      (Copied fuel known (complete env.toEnvironment
        (copyRecords buffer maxEntries (known.ahead.map Prod.snd) 0 tmp) (.boot known.user)))
      known := by
  let whole := complete env.toEnvironment
    (copyRecords buffer maxEntries (known.ahead.map Prod.snd) 0 tmp) (.boot known.user)
  -- what is left of the loop delivers what the whole loop delivers
  let holds (left : Nat) (cells : List Cell) (carried : SizeT × ByteMemory)
      (now : Knowledge) : Prop :=
    (∃ user, now = { known with ahead := cells, user := user }) ∧
      fuel + cells.length = left + known.ahead.length ∧
      complete env.toEnvironment
        (copyRecords buffer maxEntries (cells.map Prod.snd) carried.1 carried.2)
        (.boot now.user) = whole
  refine follows_forEach holds ?_ ?_ ?_ ⟨⟨known.user, rfl⟩, rfl, rfl⟩
  · rintro cells carried now ⟨⟨user, rfl⟩, consumed, _⟩
    refine ⟨?_, cells, user, rfl⟩
    omega
  · rintro left carried now ⟨⟨user, rfl⟩, _, same⟩
    refine ⟨congrArg Prod.fst same, [], ?_⟩
    show _ = { known with ahead := [], user := whole.2.user }
    rw [← same]
    rfl
  · rintro left cell rest ⟨count, slot⟩ now ⟨⟨user, rfl⟩, consumed, same⟩
    unfold copyEntry
    by_cases full : count ≥ maxEntries
    · rw [if_pos full]
      have stopped : complete env.toEnvironment
          (copyRecords buffer maxEntries (cell.2 :: rest.map Prod.snd) count slot) (.boot user) =
            (.ok count, .boot user) := by
        simp [copyRecords, full]
      have ended : whole = (.ok count, .boot user) := same.symm.trans stopped
      refine ⟨?_, cell :: rest, ?_⟩
      · show _ = whole.1
        rw [ended]
        rfl
      · show _ = { known with ahead := cell :: rest, user := whole.2.user }
        rw [ended]
        rfl
    · rw [if_neg full]
      have step : complete env.toEnvironment
          (copyRecords buffer maxEntries (cell.2 :: rest.map Prod.snd) count slot)
          (.boot user) = _ :=
        complete_copyRecords_cons env.toEnvironment buffer full cell.2 (rest.map Prod.snd) slot user
      have unfolded := same.symm.trans step
      apply keeps_bind
      refine follows_entryPid rfl outside ?_
      apply keeps_bind
      refine follows_entryMemoryLimit rfl outside ?_
      apply keeps_bind
      refine follows_onHeap (plain_copyToUser _ _) outside ?_
      let copied := recordCopy env.toEnvironment buffer count (fillTmp slot cell.2) user
      show Follows env admits (if copied.1 ≠ 0 then _ else _) _
        { known with ahead := cell :: rest, user := copied.2 }
      by_cases delivered : copied.1 = 0
      · rw [if_pos delivered] at unfolded
        rw [if_neg (not_not.mpr delivered)]
        refine ⟨outside, rfl, ⟨copied.2, rfl⟩, ?_, unfolded.symm⟩
        rw [List.length_cons] at consumed
        omega
      · rw [if_neg delivered] at unfolded
        rw [if_pos delivered]
        refine ⟨?_, cell :: rest, ?_⟩
        · show _ = whole.1
          rw [unfolded]
          rfl
        · show _ = { known with ahead := cell :: rest, user := whole.2.user }
          rw [unfolded]
          rfl

/-- The lists of `update_memory_limit` and `remove_memory_limit` are empty, so
their loops end at once. -/
theorem follows_forEach_static {σ ρ : Type} {body : Link → σ → HeapCall (Except ρ σ)}
    {post : Option (Except ρ σ) → Knowledge → Prop} {head : Link} {fuel : Nat} {carried : σ}
    (runsOut : fuel = 0 → post none known) (ends : post (some (.ok carried)) known) :
    Follows env admits (listForEachEntry head body fuel head carried) post known := by
  cases fuel with
  | zero => exact runsOut rfl
  | succ fuel =>
      unfold listForEachEntry
      rw [if_pos rfl]
      exact ends

theorem follows_forEachSafe_static {σ ρ : Type} {body : Link → σ → HeapCall (Except ρ σ)}
    {post : Option (Except ρ σ) → Knowledge → Prop} {head following : Link} {fuel : Nat}
    {carried : σ} (runsOut : fuel = 0 → post none known) (ends : post (some (.ok carried)) known) :
    Follows env admits (listForEachEntrySafe head body fuel head following carried) post known := by
  cases fuel with
  | zero => exact runsOut rfl
  | succ fuel =>
      unfold listForEachEntrySafe
      rw [if_pos rfl]
      exact ends

end Loops

/-! ### The calls -/

/-- The uninterrupted call, on a list that holds `entries`, returns `code` and
leaves `after` in the memory of its caller. -/
def Call.Answers (call : Call) (user : ByteMemory) (entries : List MemoryLimitationEntry)
    (code : Int) (after : ByteMemory) : Prop :=
  let outcome := complete call.environment call.syscall
    ((Machine.boot user).setHead .shared entries)
  outcome.1 = code ∧ outcome.2.user = after

/-- The entry a call may put in the list. -/
def Call.Admits (call : Call) (entry : MemoryLimitationEntry) : Prop :=
  ∃ env processPid memoryLimit task, call = .add env processPid memoryLimit ∧
    admission env processPid memoryLimit = .ok task ∧ entry = ⟨processPid, memoryLimit⟩

/-- Knowledge of a caller whose call has returned. -/
structure Returned (call : Call) (user : ByteMemory) (code : Int) (known : Knowledge) : Prop where
  answers : (∀ entries, call.Answers user entries code known.user) ∨
    ∃ cells, known.seen = some cells ∧ call.Answers user (cells.map Prod.snd) code known.user
  outside : known.own.target = none
  registered : known.own.registered = addedEntry (call, ⟨code, []⟩)

/-- Knowledge of a caller whose loop ran out of fuel. -/
structure RanOut (fuel : Nat) (known : Knowledge) : Prop where
  seen : fuel = 0 ∨ ∃ cells, known.seen = some cells ∧ fuel ≤ cells.length
  outside : known.own.target = none
  registered : known.own.registered = none

def Finished (fuel : Nat) (call : Call) (user : ByteMemory) : Option Int → Knowledge → Prop
  | none, known => RanOut fuel known
  | some code, known => Returned call user code known

/-- Knowledge before the call. -/
def Knowledge.start (user : ByteMemory) : Knowledge := ⟨user, [], none, .nothing⟩

section Calls

variable {env : HeapEnvironment} {admits : MemoryLimitationEntry → Prop} {known : Knowledge}
  {user : ByteMemory}

theorem follows_capable {post : Bool → Knowledge → Prop} (outside : known.own.target = none)
    (holds : post env.capable known) : Follows env admits (onHeap capable) post known := by
  have plain : Program.Within Plain capable := Program.within_perform trivial
  exact follows_onHeap plain outside holds

theorem follows_update (fuel : Nat) (processPid : PidT) (memoryLimit : SizeT) :
    Follows env admits (updateMemoryLimitOnHeap fuel processPid memoryLimit)
      (Finished fuel (.update env.toEnvironment processPid memoryLimit) user) (.start user) := by
  have answers : ∀ entries, (Call.update env.toEnvironment processPid memoryLimit).Answers user
      entries (if processPid.toInt ≤ 0 ∨ memoryLimit ≤ 0 then -einval
        else if env.capable = false then -eperm else -esrch) user := by
    intro entries
    simp only [Call.Answers, Call.environment, Call.syscall, complete_updateMemoryLimit]
    split
    · exact ⟨rfl, rfl⟩
    · split <;> exact ⟨rfl, rfl⟩
  unfold updateMemoryLimitOnHeap
  by_cases invalid : processPid.toInt ≤ 0 ∨ memoryLimit ≤ 0
  · simp only [if_pos invalid] at answers ⊢
    exact keeps_pure ⟨Or.inl answers, rfl, rfl⟩
  · simp only [if_neg invalid] at answers ⊢
    apply keeps_bind
    refine follows_capable rfl ?_
    cases privileged : env.capable with
    | false =>
        simp only [if_pos privileged] at answers
        exact keeps_pure ⟨Or.inl answers, rfl, rfl⟩
    | true =>
        simp only [privileged, Bool.true_eq_false, if_false] at answers
        apply keeps_bind
        refine follows_loadNext_static .updateStatic nofun rfl ?_
        apply keeps_bind
        refine follows_forEach_static (fun empty => ?_) ?_
        · exact keeps_pure ⟨Or.inl empty, rfl, rfl⟩
        · exact keeps_pure ⟨Or.inl answers, rfl, rfl⟩

theorem follows_remove (fuel : Nat) (processPid : PidT) :
    Follows env admits (removeMemoryLimitOnHeap fuel processPid)
      (Finished fuel (.remove env.toEnvironment processPid) user) (.start user) := by
  have answers : ∀ entries, (Call.remove env.toEnvironment processPid).Answers user
      entries (if processPid.toInt ≤ 0 then -einval
        else if env.capable = false then -eperm else -esrch) user := by
    intro entries
    simp only [Call.Answers, Call.environment, Call.syscall, complete_removeMemoryLimit]
    split
    · exact ⟨rfl, rfl⟩
    · split <;> exact ⟨rfl, rfl⟩
  unfold removeMemoryLimitOnHeap
  by_cases invalid : processPid.toInt ≤ 0
  · simp only [if_pos invalid] at answers ⊢
    exact keeps_pure ⟨Or.inl answers, rfl, rfl⟩
  · simp only [if_neg invalid] at answers ⊢
    apply keeps_bind
    refine follows_capable rfl ?_
    cases privileged : env.capable with
    | false =>
        simp only [if_pos privileged] at answers
        exact keeps_pure ⟨Or.inl answers, rfl, rfl⟩
    | true =>
        simp only [privileged, Bool.true_eq_false, if_false] at answers
        apply keeps_bind
        refine follows_loadNext_static .removeStatic nofun rfl ?_
        apply keeps_bind
        refine follows_loadNext_static .removeStatic nofun rfl ?_
        apply keeps_bind
        refine follows_forEachSafe_static (fun empty => ?_) ?_
        · exact keeps_pure ⟨Or.inl empty, rfl, rfl⟩
        · exact keeps_pure ⟨Or.inl answers, rfl, rfl⟩

/-- From the allocation on, `add_memory_limit` works on an entry of its own until
the last store makes it reachable. -/
theorem follows_addEntry {processPid : PidT} {memoryLimit : SizeT} (task : TaskRef)
    (nothing : known.own = .nothing) (admitted : admits ⟨processPid, memoryLimit⟩) :
    Follows env admits (addEntry processPid memoryLimit task)
      (fun code after =>
        if env.kmalloc then code = 0 ∧
          ∃ ref, after = { known with own := .published ref ⟨processPid, memoryLimit⟩ }
        else code = -enomem ∧ after = known) known := by
  have outside : known.own.target = none := by rw [nothing]; rfl
  apply keeps_bind
  refine keeps_perform ⟨nothing, Or.inl outside⟩ ?_
  intro reply after learned
  cases allocates : env.kmalloc with
  | false =>
      have refused : reply = none ∧ after = known := by
        simpa [listProtocol, learns, allocates] using learned
      obtain ⟨rfl, rfl⟩ := refused
      apply keeps_bind
      exact follows_putTaskStruct task outside ⟨rfl, rfl⟩
  | true =>
      have given : ∃ ref, reply = some (.entry ref) ∧
          after = { known with own := .allocated ref } := by
        simpa [listProtocol, learns, allocates] using learned
      obtain ⟨ref, rfl, rfl⟩ := given
      apply keeps_bind
      refine keeps_perform ⟨⟨ref, rfl, rfl⟩, Or.inl rfl⟩ ?_
      rintro _ _ rfl
      apply keeps_bind
      refine keeps_perform ⟨⟨ref, processPid, rfl, rfl⟩, Or.inl rfl⟩ ?_
      rintro _ _ rfl
      apply keeps_bind
      apply keeps_bind
      refine follows_loadNext_shared rfl ?_
      intro behind
      apply keeps_bind
      refine keeps_perform ⟨Or.inl ⟨ref, _, behind, rfl, rfl⟩, Or.inr trivial⟩ ?_
      rintro _ _ rfl
      apply keeps_bind
      refine keeps_perform ⟨⟨ref, _, behind, rfl, rfl, rfl⟩, Or.inr trivial⟩ ?_
      rintro _ _ rfl
      apply keeps_bind
      refine keeps_perform ⟨Or.inr ⟨ref, _, behind, rfl, rfl⟩, Or.inr trivial⟩ ?_
      rintro _ _ rfl
      refine keeps_perform ⟨⟨rfl, ref, _, behind, rfl, rfl, admitted⟩, Or.inr trivial⟩ ?_
      rintro _ _ rfl
      apply keeps_bind
      exact follows_putTaskStruct task rfl ⟨rfl, ref, rfl⟩

theorem follows_add (fuel : Nat) (processPid : PidT) (memoryLimit : SizeT) :
    Follows env (Call.add env.toEnvironment processPid memoryLimit).Admits
      (addMemoryLimitOnHeap fuel processPid memoryLimit)
      (Finished fuel (.add env.toEnvironment processPid memoryLimit) user) (.start user) := by
  let call := Call.add env.toEnvironment processPid memoryLimit
  have outcome : ∀ entries, complete call.environment call.syscall
      ((Machine.boot user).setHead .shared entries) = _ :=
    fun entries => complete_addMemoryLimit env.toEnvironment _ processPid memoryLimit
  have sharedHead : ∀ entries, ((Machine.boot user).setHead .shared entries).heads .shared =
      entries := by
    simp [Machine.setHead]
  apply keeps_bind
  refine follows_onHeap (plain_addAdmission processPid memoryLimit) rfl ?_
  rw [complete_addAdmission]
  cases admitted : admission env.toEnvironment processPid memoryLimit with
  | error code =>
      have answers : ∀ entries, call.Answers user entries code user := by
        intro entries
        unfold Call.Answers
        rw [outcome, admitted]
        exact ⟨rfl, rfl⟩
      have negative := admission_error_neg admitted
      exact keeps_pure ⟨Or.inl answers, rfl, (if_neg (Int.ne_of_lt negative)).symm⟩
  | ok task =>
      apply keeps_bind
      refine follows_loadNext_shared rfl ?_
      intro cells
      have search : Follows env call.Admits _ _ ⟨user, cells, some cells, .nothing⟩ :=
        follows_duplicateSearch processPid task fuel rfl
      apply keeps_bind
      refine search.mono ?_
      rintro result after ⟨⟨rest, rfl⟩, searched⟩
      have onCells : ∀ code, (if Listed (cells.map Prod.snd) processPid then (-101 : Int)
          else if env.kmalloc then 0 else -enomem) = code →
          call.Answers user (cells.map Prod.snd) code user := by
        intro code isCode
        unfold Call.Answers
        rw [outcome, admitted, sharedHead]
        subst isCode
        by_cases listed : Listed (cells.map Prod.snd) processPid
        · simp only [if_pos listed]
          exact ⟨trivial, rfl⟩
        · simp only [if_neg listed]
          cases env.kmalloc <;> exact ⟨rfl, rfl⟩
      cases result with
      | none =>
          have long : fuel ≤ (cells.map Prod.snd).length := searched
          rw [List.length_map] at long
          exact keeps_pure ⟨Or.inr ⟨cells, rfl, long⟩, rfl, rfl⟩
      | some exit =>
          cases exit with
          | error code =>
              obtain ⟨isCode, listed⟩ := searched
              subst isCode
              exact keeps_pure ⟨Or.inr ⟨cells, rfl, onCells _ (if_pos listed)⟩, rfl, rfl⟩
          | ok _ =>
              have unlisted : ¬ Listed (cells.map Prod.snd) processPid := searched
              apply keeps_bind
              refine (follows_addEntry task rfl ⟨_, _, _, task, rfl, admitted, rfl⟩).mono ?_
              intro code after reached
              have decided := onCells code
              rw [if_neg unlisted] at decided
              cases allocates : env.kmalloc with
              | false =>
                  simp only [allocates, Bool.false_eq_true, if_false] at reached decided
                  obtain ⟨rfl, rfl⟩ := reached
                  exact keeps_pure ⟨Or.inr ⟨cells, rfl, decided rfl⟩, rfl, rfl⟩
              | true =>
                  simp only [allocates, if_true] at reached decided
                  obtain ⟨rfl, ref, rfl⟩ := reached
                  exact keeps_pure ⟨Or.inr ⟨cells, rfl, decided rfl⟩, rfl, rfl⟩

/-- Whatever the lists hold, the count is reported in the same way. -/
theorem complete_reportCount_beside (env : Environment) (returned : Nat) (count : SizeT)
    (heads : ListHead → List MemoryLimitationEntry) (user : ByteMemory) :
    (complete env (reportCount returned count) ⟨heads, user⟩).1 =
        (complete env (reportCount returned count) (.boot user)).1 ∧
      (complete env (reportCount returned count) ⟨heads, user⟩).2.user =
        (complete env (reportCount returned count) (.boot user)).2.user := by
  rw [complete_of_plain (plain_reportCount returned count) env ⟨heads, user⟩]
  exact ⟨rfl, rfl⟩

theorem follows_get (fuel buffer : Nat) (maxEntries : SizeT) (returned : Nat) :
    Follows env admits (getMemoryLimitsOnHeap fuel buffer maxEntries returned)
      (Finished fuel (.get env.toEnvironment buffer maxEntries returned) user) (.start user) := by
  let call := Call.get env.toEnvironment buffer maxEntries returned
  unfold getMemoryLimitsOnHeap
  by_cases none : maxEntries ≤ 0
  · have answers : ∀ entries, call.Answers user entries (-einval) user := by
      intro entries
      unfold Call.Answers Call.syscall getMemoryLimits
      simp only [call, if_pos none]
      exact ⟨rfl, rfl⟩
    rw [if_pos none]
    exact keeps_pure ⟨Or.inl answers, rfl, rfl⟩
  · rw [if_neg none]
    by_cases null : buffer = 0 ∨ returned = 0
    · have answers : ∀ entries, call.Answers user entries (-einval) user := by
        intro entries
        unfold Call.Answers Call.syscall getMemoryLimits
        simp only [call, if_neg none, if_pos null]
        exact ⟨rfl, rfl⟩
      rw [if_pos null]
      exact keeps_pure ⟨Or.inl answers, rfl, rfl⟩
    · rw [if_neg null]
      have plain : Program.Within Plain (stackSlot .tmp) := Program.within_perform trivial
      apply keeps_bind
      refine follows_onHeap plain rfl ?_
      apply keeps_bind
      refine follows_loadNext_shared rfl ?_
      intro cells
      have loop : Follows env admits _ _ ⟨user, cells, some cells, .nothing⟩ :=
        follows_copyLoop buffer maxEntries (env.stack .tmp) fuel rfl
      apply keeps_bind
      refine loop.mono ?_
      intro result after reached
      have outcome : complete call.environment call.syscall
          ((Machine.boot user).setHead .shared (cells.map Prod.snd)) = _ :=
        complete_getMemoryLimits_loop env.toEnvironment _ none null
      have sharedHead : ((Machine.boot user).setHead .shared (cells.map Prod.snd)).heads .shared =
          cells.map Prod.snd := by
        simp [Machine.setHead]
      rw [sharedHead] at outcome
      cases result with
      | none =>
          obtain ⟨long, rest, memory, rfl⟩ := reached
          exact keeps_pure ⟨Or.inr ⟨cells, rfl, long⟩, rfl, rfl⟩
      | some exit =>
          obtain ⟨sameExit, rest, rfl⟩ := reached
          have outcomeOf : complete call.environment call.syscall
              ((Machine.boot user).setHead .shared (cells.map Prod.snd)) =
                afterCopies env.toEnvironment returned _ (complete env.toEnvironment
                  (copyRecords buffer maxEntries (cells.map Prod.snd) 0 (env.stack .tmp))
                  (.boot user)) := outcome
          generalize complete env.toEnvironment (copyRecords buffer maxEntries
            (cells.map Prod.snd) 0 (env.stack .tmp)) (.boot user) = copied at sameExit outcomeOf ⊢
          obtain ⟨ending, memory⟩ := copied
          cases ending with
          | error code =>
              simp only [sameExit]
              refine keeps_pure ⟨Or.inr ⟨cells, rfl, ?_⟩, rfl, rfl⟩
              unfold Call.Answers
              rw [outcomeOf]
              exact ⟨rfl, rfl⟩
          | ok count =>
              simp only [sameExit]
              apply keeps_bind
              refine follows_onHeap (plain_reportCount returned count) rfl ?_
              refine keeps_pure ⟨Or.inr ⟨cells, rfl, ?_⟩, rfl, rfl⟩
              unfold Call.Answers
              rw [outcomeOf]
              exact complete_reportCount_beside env.toEnvironment returned count _ memory.user

theorem follows_call (fuel : Nat) (event : HeapEvent) (user : ByteMemory) :
    Follows event.environment event.call.Admits (event.call.onHeap fuel)
      (Finished fuel event.call user) (.start user) := by
  obtain ⟨call, placement⟩ := event
  cases call with
  | add env processPid memoryLimit => exact follows_add fuel processPid memoryLimit
  | update env processPid memoryLimit => exact follows_update fuel processPid memoryLimit
  | remove env processPid => exact follows_remove fuel processPid
  | get env buffer maxEntries returned => exact follows_get fuel buffer maxEntries returned

end Calls

end UsacSyscalls.Project3

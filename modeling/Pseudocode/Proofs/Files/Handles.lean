import Pseudocode.Proofs.Files.Calls

/-!
Readers and writers under any sequence of calls.

A `Trace` is a sequence of calls with what came of each. An `Account` is what the
calls alone say: the contents that every path should have, and the path and lines
that every handle was opened with. The account looks only at the calls that
succeeded, at what they were given and at the lines that they gave; the invariant
`Kept` says that the machine agrees with it after every trace.
-/

namespace Pseudocode

/-- A call that was made, and what came of it. -/
structure Entry where
  call : FileCall
  result : Except Fault Value

namespace Entry

/-- The line that a reader delivered. -/
def delivers (id : ReaderId) (e : Entry) : Option String :=
  match e.result, e.call with
  | .ok (.text line), .readLine (.reader other) _ => if other = id then some line else none
  | _, _ => none

/-- The line that a writer took. -/
def writes (id : WriterId) (e : Entry) : Option String :=
  match e.result, e.call with
  | .ok _, .writeLine (.writer other) [.text line] => if other = id then some line else none
  | _, _ => none

def closes (handle : Handle) (e : Entry) : Bool :=
  match e.result, e.call with
  | .ok _, .close other _ => other == handle
  | _, _ => false

end Entry

/-- Calls made one after the other, the latest first, and the machine after them. -/
inductive Trace (start : Machine) : List Entry → Machine → Prop where
  | start : Trace start [] start
  | done {log : List Entry} {m m' : Machine} {call : FileCall} {v : Value} {ctx : Context} {span : Span}
      (before : Trace start log m) (ran : call.perform ctx span m = .done v m') :
      Trace start (⟨call, .ok v⟩ :: log) m'
  | failed {log : List Entry} {m m' : Machine} {call : FileCall} {fault : Fault} {ctx : Context}
      {span : Span} (before : Trace start log m) (ran : call.perform ctx span m = .failed fault m') :
      Trace start (⟨call, .error fault⟩ :: log) m'

theorem Trace.effect {start m m' : Machine} {log : List Entry} {call : FileCall} {v : Value}
    (before : Trace start log m) (effect : FileCall.Effect m call v m') :
    Trace start (⟨call, .ok v⟩ :: log) m' := by
  have ran : call.perform (Action.context {} 0) .unplaced m = .done v m' := effect.perform
  exact .done before ran

/-- The lines that a reader has delivered, in order. -/
def delivered (id : ReaderId) (log : List Entry) : List String :=
  log.reverse.filterMap (Entry.delivers id)

/-- The lines that a writer has taken, in order. -/
def written (id : WriterId) (log : List Entry) : List String :=
  log.reverse.filterMap (Entry.writes id)

/-- The handle has been closed. -/
def closed (handle : Handle) (log : List Entry) : Bool := log.any (Entry.closes handle)

/-! ### What the calls say -/

/-- What a handle was opened with: its path, and the lines of the file at that time. -/
structure Opening where
  path : String
  lines : List String

structure Account where
  /-- The contents that a path should have. -/
  contents : String → Option String
  /-- How a handle was opened, when it was. -/
  opened : Handle → Option Opening

namespace Account

/-- The file of a path gets new contents, whatever path leads to it. -/
def store (s : FileStore) (path contents : String) (a : Account) : Account :=
  { a with contents := fun q => if s.file? q = s.file? path then some contents else a.contents q }

/-- A handle is opened on a path. -/
def enter (path : String) (handle : Handle) (a : Account) : Account :=
  { a with opened := fun other =>
      if other = handle then (a.contents path).map fun contents => ⟨path, Native.linesOf contents⟩
      else a.opened other }

theorem opened_enter_of_ne (path : String) {handle other : Handle} (a : Account)
    (apart : other ≠ handle) : (a.enter path handle).opened other = a.opened other :=
  if_neg apart

/-- What a call that succeeded adds to the account. -/
def after (s : FileStore) (earlier : List Entry) (a : Account) : FileCall → Value → Account
  | .newFile [.text path], _ => a.store s path ""
  | .openRead [.text path], .reader id => a.enter path (.reader id)
  | .openWrite [.text path], .writer id => a.enter path (.writer id)
  | .close (.writer id) _, _ =>
      match a.opened (.writer id) with
      | some o => a.store s o.path (Text.joinLines (o.lines ++ written id earlier))
      | none => a
  | _, _ => a

end Account

/-- The account of the calls made from a store on. Calls that failed add nothing. -/
def account (s : FileStore) : List Entry → Account
  | [] => { contents := s.read?, opened := fun _ => none }
  | ⟨call, .ok v⟩ :: earlier => (account s earlier).after s earlier call v
  | ⟨_, .error _⟩ :: earlier => account s earlier

/-! ### The machine agrees with the account -/

section Kept

variable {s : FileStore} {log : List Entry} {m m' : Machine} {call : FileCall} {v : Value}

@[simp] theorem delivered_cons (id : ReaderId) (e : Entry) (log : List Entry) :
    delivered id (e :: log) = delivered id log ++ (e.delivers id).toList := by
  unfold delivered
  cases found : e.delivers id <;> simp [found]

@[simp] theorem written_cons (id : WriterId) (e : Entry) (log : List Entry) :
    written id (e :: log) = written id log ++ (e.writes id).toList := by
  unfold written
  cases found : e.writes id <;> simp [found]

@[simp] theorem closed_cons (handle : Handle) (e : Entry) (log : List Entry) :
    closed handle (e :: log) = (e.closes handle || closed handle log) :=
  rfl

/-- The lines a reader was opened with are those it has delivered and those it still
holds. -/
def ReaderKept (a : Account) (log : List Entry) (id : ReaderId) : Option FileReader → Prop
  | none => a.opened (.reader id) = none ∧ delivered id log = [] ∧ closed (.reader id) log = false
  | some r => ∃ path, a.opened (.reader id) = some ⟨path, delivered id log ++ r.unread⟩ ∧
      closed (.reader id) log = r.closed

/-- A writer holds the lines it was opened with and those it has taken. -/
def WriterKept (a : Account) (log : List Entry) (id : WriterId) : Option FileWriter → Prop
  | none => a.opened (.writer id) = none ∧ written id log = [] ∧ closed (.writer id) log = false
  | some w => ∃ lines, a.opened (.writer id) = some ⟨w.path, lines⟩ ∧
      w.lines = lines ++ written id log ∧ closed (.writer id) log = w.closed

structure Kept (s : FileStore) (log : List Entry) (m : Machine) : Prop where
  system : m.world.store.system = s.system
  files : ∀ q, m.world.store.file? q = s.file? q
  contents : ∀ q, m.world.store.read? q = (account s log).contents q
  readers : ∀ id, ReaderKept (account s log) log id m.heap.readers[id]?
  writers : ∀ id, WriterKept (account s log) log id m.heap.writers[id]?

/-- A call that neither reads from a reader nor opens or closes it. -/
theorem ReaderKept.skip {a a' : Account} {e : Entry} {id : ReaderId} {r : Option FileReader}
    (kept : ReaderKept a log id r) (opened : a'.opened (.reader id) = a.opened (.reader id))
    (silent : e.delivers id = none) (open' : e.closes (.reader id) = false) :
    ReaderKept a' (e :: log) id r := by
  cases r <;> simpa [ReaderKept, opened, silent, open'] using kept

/-- A call that neither writes to a writer nor opens or closes it. -/
theorem WriterKept.skip {a a' : Account} {e : Entry} {id : WriterId} {w : Option FileWriter}
    (kept : WriterKept a log id w) (opened : a'.opened (.writer id) = a.opened (.writer id))
    (silent : e.writes id = none) (open' : e.closes (.writer id) = false) :
    WriterKept a' (e :: log) id w := by
  cases w <;> simpa [WriterKept, opened, silent, open'] using kept

/-- An accepted write changes the store as the account says. -/
theorem Kept.saved (lawful : s.system.Lawful) (kept : Kept s log m) {path contents : String}
    (accepted : (m.world.save path contents).1 = .ok ()) :
    (∀ q, (FileCall.saved m path contents).world.store.file? q = s.file? q) ∧
      ∀ q, (FileCall.saved m path contents).world.store.read? q =
        ((account s log).store s path contents).contents q := by
  rw [FileCall.verdict_save] at accepted
  rw [FileCall.store_saved]
  have lawful : m.world.store.system.Lawful := kept.system ▸ lawful
  refine ⟨fun q => (FileStore.file?_write lawful accepted q).trans (kept.files q), ?_⟩
  intro q
  rw [FileStore.read?_write lawful accepted, kept.files, kept.files, kept.contents]
  rfl

/-- What holds of a new cell and still holds of the others. -/
theorem forall_push {α : Type} (P : Nat → Option α → Prop) {cells : Array α} {x : α}
    (new : P cells.size (some x)) (others : ∀ i, i ≠ cells.size → P i cells[i]?) (i : Nat) :
    P i (cells.push x)[i]? := by
  rw [Array.getElem?_push]
  by_cases same : i = cells.size
  · rw [if_pos same, same]
    exact new
  · rw [if_neg same]
    exact others i same

/-- What holds of a cell that was overwritten and still holds of the others. -/
theorem forall_set {α : Type} (P : Nat → Option α → Prop) {cells : Array α} {id : Nat} {old x : α}
    (here : cells[id]? = some old) (changed : P id (some x)) (others : ∀ i, i ≠ id → P i cells[i]?)
    (i : Nat) : P i (cells.setIfInBounds id x)[i]? := by
  rw [Array.getElem?_setIfInBounds]
  by_cases same : id = i
  · rw [if_pos same, if_pos (Array.getElem?_eq_some_iff.mp here).1, ← same]
    exact changed
  · rw [if_neg same]
    exact others i (Ne.symm same)

/-- A call that succeeded keeps the agreement. -/
theorem Kept.effect (lawful : s.system.Lawful) (kept : Kept s log m) (effect : FileCall.Effect m call v m') :
    Kept s (⟨call, .ok v⟩ :: log) m' := by
  cases effect with
  | @newFile path accepted =>
      obtain ⟨files, contents⟩ := kept.saved lawful accepted
      refine ⟨kept.system, files, contents, ?_, ?_⟩
      · exact fun id => (kept.readers id).skip rfl rfl rfl
      · exact fun id => (kept.writers id).skip rfl rfl rfl
  | @openRead path contents found =>
      have lines := (kept.contents path).symm.trans found
      have new := kept.readers m.heap.readers.size
      rw [Array.getElem?_eq_none (Nat.le_refl _)] at new
      obtain ⟨-, nothing, never⟩ := new
      refine ⟨kept.system, kept.files, kept.contents, forall_push (ReaderKept _ _) ⟨path, ?_, never⟩ ?_, ?_⟩
      · simp [account, Account.after, Account.enter, lines, nothing, Entry.delivers]
      · intro id other
        exact (kept.readers id).skip (Account.opened_enter_of_ne _ _ (by simpa using other)) rfl rfl
      · exact fun id => (kept.writers id).skip (Account.opened_enter_of_ne _ _ (by simp)) rfl rfl
  | @openWrite path contents found =>
      have lines := (kept.contents path).symm.trans found
      have new := kept.writers m.heap.writers.size
      rw [Array.getElem?_eq_none (Nat.le_refl _)] at new
      obtain ⟨-, nothing, never⟩ := new
      refine ⟨kept.system, kept.files, kept.contents, ?_,
        forall_push (WriterKept _ _) ⟨Native.linesOf contents, ?_, ?_, never⟩ ?_⟩
      · exact fun id => (kept.readers id).skip (Account.opened_enter_of_ne _ _ (by simp)) rfl rfl
      · simp [account, Account.after, Account.enter, lines, FileWriter.ofLines]
      · simp [nothing, Entry.writes]
      · intro id other
        exact (kept.writers id).skip (Account.opened_enter_of_ne _ _ (by simpa using other)) rfl rfl
  | @readLine id r line rest here isOpen unread =>
      have old := kept.readers id
      rw [here] at old
      obtain ⟨path, opened, ended⟩ := old
      refine ⟨kept.system, kept.files, kept.contents,
        forall_set (ReaderKept _ _) here ⟨path, opened.trans ?_, ended⟩ ?_, ?_⟩
      · simp [unread, Entry.delivers]
      · exact fun other apart => (kept.readers other).skip rfl (if_neg apart.symm) rfl
      · exact fun id => (kept.writers id).skip rfl rfl rfl
  | @endOfFile id r here isOpen =>
      refine ⟨kept.system, kept.files, kept.contents, ?_, ?_⟩
      · exact fun id => (kept.readers id).skip rfl rfl rfl
      · exact fun id => (kept.writers id).skip rfl rfl rfl
  | @closeReader id r here isOpen =>
      have old := kept.readers id
      rw [here] at old
      obtain ⟨path, opened, -⟩ := old
      refine ⟨kept.system, kept.files, kept.contents,
        forall_set (ReaderKept _ _) here ⟨path, opened.trans ?_, by simp [Entry.closes]⟩ ?_, ?_⟩
      · simp [Entry.delivers]
      · exact fun other apart => (kept.readers other).skip rfl rfl (by simp [Entry.closes, apart.symm])
      · exact fun id => (kept.writers id).skip rfl rfl rfl
  | @writeLine id w line here isOpen =>
      have old := kept.writers id
      rw [here] at old
      obtain ⟨lines, opened, all, ended⟩ := old
      refine ⟨kept.system, kept.files, kept.contents, ?_,
        forall_set (WriterKept _ _) here ⟨lines, opened, by simp [all, Entry.writes], ended⟩ ?_⟩
      · exact fun id => (kept.readers id).skip rfl rfl rfl
      · exact fun other apart => (kept.writers other).skip rfl (if_neg apart.symm) rfl
  | @closeWriter id w here isOpen accepted =>
      have old := kept.writers id
      rw [here] at old
      obtain ⟨lines, opened, all, -⟩ := old
      obtain ⟨files, contents⟩ := kept.saved lawful accepted
      have stored : account s (⟨.close (.writer id) [], .ok .null⟩ :: log) =
          (account s log).store s w.path (Text.joinLines w.lines) := by
        simp only [account, Account.after, opened, all]
      constructor
      · exact kept.system
      · exact files
      · rw [stored]
        exact contents
      · rw [stored]
        exact fun id => (kept.readers id).skip rfl rfl rfl
      · rw [stored]
        refine forall_set (WriterKept _ _) here ⟨lines, opened, all.trans ?_, by simp [Entry.closes]⟩ ?_
        · simp [Entry.writes]
        · exact fun other apart => (kept.writers other).skip rfl rfl (by simp [Entry.closes, apart.symm])

/-- A call that failed keeps the agreement. -/
theorem Kept.failed (kept : Kept s log m) {fault : Fault} (heap : m'.heap = m.heap)
    (store : m'.world.store = m.world.store) : Kept s (⟨call, .error fault⟩ :: log) m' := by
  obtain ⟨system, files, contents, readers, writers⟩ := kept
  rw [← store] at system files contents
  rw [← heap] at readers writers
  exact ⟨system, files, contents, fun id => (readers id).skip rfl rfl rfl,
    fun id => (writers id).skip rfl rfl rfl⟩

/-- The machine agrees with the account after every sequence of calls. -/
theorem Trace.kept {start : Machine} (lawful : start.world.store.system.Lawful)
    (noReaders : start.heap.readers = #[]) (noWriters : start.heap.writers = #[])
    (trace : Trace start log m) : Kept start.world.store log m := by
  induction trace with
  | start =>
      refine ⟨rfl, fun _ => rfl, fun _ => rfl, ?_, ?_⟩
      · intro id
        rw [noReaders]
        exact ⟨rfl, rfl, rfl⟩
      · intro id
        rw [noWriters]
        exact ⟨rfl, rfl, rfl⟩
  | done _ ran ih => exact ih.effect lawful (FileCall.perform_eq_done_iff.mp ran)
  | failed _ ran ih =>
      obtain ⟨heap, store⟩ := FileCall.perform_failed (ih.system ▸ lawful) ran
      exact ih.failed heap store

/-- A reader that was opened is there, with the lines it has not delivered. -/
theorem Kept.reader (kept : Kept s log m) {id : ReaderId} {o : Opening}
    (opened : (account s log).opened (.reader id) = some o) :
    ∃ r, m.heap.readers[id]? = some r ∧ r.closed = closed (.reader id) log ∧
      o.lines = delivered id log ++ r.unread := by
  have here := kept.readers id
  cases found : m.heap.readers[id]? with
  | none =>
      rw [found] at here
      rw [here.1] at opened
      cases opened
  | some r =>
      rw [found] at here
      obtain ⟨path, opened', ended⟩ := here
      rw [opened'] at opened
      cases opened
      exact ⟨r, rfl, ended.symm, rfl⟩

/-- A writer that was opened is there, with all its lines. -/
theorem Kept.writer (kept : Kept s log m) {id : WriterId} {o : Opening}
    (opened : (account s log).opened (.writer id) = some o) :
    ∃ w, m.heap.writers[id]? = some w ∧ w.closed = closed (.writer id) log ∧ w.path = o.path ∧
      w.lines = o.lines ++ written id log := by
  have here := kept.writers id
  cases found : m.heap.writers[id]? with
  | none =>
      rw [found] at here
      rw [here.1] at opened
      cases opened
  | some w =>
      rw [found] at here
      obtain ⟨lines, opened', all, ended⟩ := here
      rw [opened'] at opened
      cases opened
      exact ⟨w, rfl, ended.symm, rfl, all⟩

/-- A method that succeeds was called on an open handle. -/
theorem Kept.open_of_effect (kept : Kept s log m) {handle : Handle}
    (on : call.handle? = some handle) (effect : FileCall.Effect m call v m') :
    closed handle log = false := by
  have reader : ∀ {id r}, m.heap.readers[id]? = some r → r.closed = false →
      closed (.reader id) log = false := by
    intro id r here isOpen
    have agrees := kept.readers id
    rw [here] at agrees
    obtain ⟨-, -, ended⟩ := agrees
    exact ended.trans isOpen
  have writer : ∀ {id w}, m.heap.writers[id]? = some w → w.closed = false →
      closed (.writer id) log = false := by
    intro id w here isOpen
    have agrees := kept.writers id
    rw [here] at agrees
    obtain ⟨-, -, -, ended⟩ := agrees
    exact ended.trans isOpen
  cases effect with
  | newFile | openRead | openWrite => cases on
  | readLine here isOpen | endOfFile here isOpen | closeReader here isOpen =>
      cases on
      exact reader here isOpen
  | writeLine here isOpen | closeWriter here isOpen =>
      cases on
      exact writer here isOpen

end Kept

/-! ### What calls give -/

/-- What every call gives after the calls of a log, by the account of them. -/
structure Accounted (start : Machine) (log : List Entry) (m : Machine) : Prop where
  /-- A path has the contents that were stored last, or else those it had at the start. -/
  contents : ∀ path, m.world.store.read? path = (account start.world.store log).contents path
  /-- Opening gives a new handle, when there is a file. -/
  openReader : ∀ path ctx span,
    if ((account start.world.store log).contents path).isSome then
      ∃ id m', (FileCall.openRead [.text path]).perform ctx span m = .done (.reader id) m' ∧
        (account start.world.store log).opened (.reader id) = none
    else ∃ fault m', (FileCall.openRead [.text path]).perform ctx span m = .failed fault m'
  openWriter : ∀ path ctx span,
    if ((account start.world.store log).contents path).isSome then
      ∃ id m', (FileCall.openWrite [.text path]).perform ctx span m = .done (.writer id) m' ∧
        (account start.world.store log).opened (.writer id) = none
    else ∃ fault m', (FileCall.openWrite [.text path]).perform ctx span m = .failed fault m'
  /-- A reader has delivered the first of the lines it was opened with, and while it is
  open it delivers the next one and knows when none is left. -/
  delivers : ∀ id o, (account start.world.store log).opened (.reader id) = some o →
    ∃ rest, o.lines = delivered id log ++ rest ∧
      (closed (.reader id) log = false → ∀ ctx span,
        (FileCall.endOfFile (.reader id) []).perform ctx span m = .done (.boolean rest.isEmpty) m ∧
        match rest with
        | line :: _ => ∃ m', (FileCall.readLine (.reader id) []).perform ctx span m = .done (.text line) m'
        | [] => ∃ fault m', (FileCall.readLine (.reader id) []).perform ctx span m = .failed fault m')
  /-- An open writer takes every line. -/
  takes : ∀ id o, (account start.world.store log).opened (.writer id) = some o →
    closed (.writer id) log = false → ∀ line ctx span, ∃ m',
      (FileCall.writeLine (.writer id) [.text line]).perform ctx span m = .done (.text line) m'
  /-- Closing a writer stores the lines it was opened with and those it has taken. It
  fails when the store refuses them. -/
  stores : ∀ id o, (account start.world.store log).opened (.writer id) = some o →
    closed (.writer id) log = false → ∀ ctx span,
      match m.world.store.write m.world.writes o.path (Text.joinLines (o.lines ++ written id log)) with
      | (.ok (), store) => ∃ m', (FileCall.close (.writer id) []).perform ctx span m = .done .null m' ∧
          m'.world.store = store
      | (.error _, _) => ∃ fault m',
          (FileCall.close (.writer id) []).perform ctx span m = .failed fault m'
  /-- Every call ends, and one that fails changes neither a handle nor the store. -/
  whole : ∀ call ctx span, (∃ v m', FileCall.perform ctx span call m = .done v m') ∨
    ∃ fault m', FileCall.perform ctx span call m = .failed fault m' ∧ m'.heap = m.heap ∧
      m'.world.store = m.world.store
  /-- Nothing can be done with a closed handle. -/
  refuses : ∀ handle call ctx span, closed handle log = true → call.handle? = some handle →
    ∃ fault m', FileCall.perform ctx span call m = .failed fault m'

/-- Whatever calls were made on a lawful store, in whatever order and with whatever
outcome, all that can be seen of the files and handles is what the account of these calls
says. -/
theorem handles_accounted {start m : Machine} {log : List Entry}
    (lawful : start.world.store.system.Lawful)
    (noReaders : start.heap.readers = #[]) (noWriters : start.heap.writers = #[])
    (trace : Trace start log m) : Accounted start log m := by
  have kept := trace.kept lawful noReaders noWriters
  constructor
  case contents => exact kept.contents
  case openReader =>
    intro path ctx span
    rw [← kept.contents]
    cases found : m.world.store.read? path with
    | some contents =>
        have new := kept.readers m.heap.readers.size
        rw [Array.getElem?_eq_none (Nat.le_refl _)] at new
        exact ⟨_, _, (FileCall.Effect.openRead found).perform, new.1⟩
    | none => exact FileCall.openRead_failed found
  case openWriter =>
    intro path ctx span
    rw [← kept.contents]
    cases found : m.world.store.read? path with
    | some contents =>
        have new := kept.writers m.heap.writers.size
        rw [Array.getElem?_eq_none (Nat.le_refl _)] at new
        exact ⟨_, _, (FileCall.Effect.openWrite found).perform, new.1⟩
    | none => exact FileCall.openWrite_failed found
  case delivers =>
    intro id o opened
    obtain ⟨r, here, ended, lines⟩ := kept.reader opened
    refine ⟨r.unread, lines, ?_⟩
    intro isOpen ctx span
    rw [isOpen] at ended
    refine ⟨(FileCall.Effect.endOfFile here ended).perform, ?_⟩
    split
    · rename_i unread
      exact ⟨_, (FileCall.Effect.readLine here ended unread).perform⟩
    · rename_i unread
      exact FileCall.readLine_failed here unread
  case takes =>
    intro id o opened isOpen line ctx span
    obtain ⟨w, here, ended, -⟩ := kept.writer opened
    exact ⟨_, (FileCall.Effect.writeLine here (ended.trans isOpen)).perform⟩
  case stores =>
    intro id o opened isOpen ctx span
    obtain ⟨w, here, ended, path, lines⟩ := kept.writer opened
    rw [← path, ← lines]
    rw [isOpen] at ended
    split
    · rename_i accepted
      refine ⟨_, (FileCall.Effect.closeWriter here ended ?_).perform, ?_⟩
      · rw [FileCall.verdict_save, accepted]
      · exact congrArg Prod.snd accepted
    · rename_i refused
      exact FileCall.close_failed here (congrArg Prod.fst refused)
  case whole =>
    intro call ctx span
    rcases FileCall.perform_cases ctx span call m with ⟨v, m', effect⟩ | failed
    · exact .inl ⟨v, m', effect.perform⟩
    · obtain ⟨fault, m', failed, heap, store⟩ := failed
      exact .inr ⟨fault, m', failed, heap, store (kept.system ▸ lawful)⟩
  case refuses =>
    intro handle call ctx span ended on
    refine FileCall.failed_of_no_effect ?_
    intro v m' effect
    rw [kept.open_of_effect on effect] at ended
    cases ended

/-- A reader and a writer on one file. -/
theorem handles_accounted_reader_and_writer :
    let start : Machine := { world := { store := { files := [("notes", "one\ntwo")] } } }
    ∃ log m, Trace start log m ∧ Accounted start log m ∧ delivered 0 log = ["one"] ∧
      (account start.world.store log).contents "notes" = some "one\ntwo\nthree" := by
  intro start
  have opened : Trace start [⟨.openRead [.text "notes"], .ok (.reader 0)⟩] _ :=
    Trace.start.effect (.openRead rfl)
  have both : Trace start (⟨.openWrite [.text "notes"], .ok (.writer 0)⟩ :: _) _ :=
    opened.effect (.openWrite rfl)
  have added : Trace start (⟨.writeLine (.writer 0) [.text "three"], .ok (.text "three")⟩ :: _) _ :=
    both.effect (.writeLine rfl rfl)
  have stored : Trace start (⟨.close (.writer 0) [], .ok .null⟩ :: _) _ :=
    added.effect (.closeWriter rfl rfl rfl)
  have read : Trace start (⟨.readLine (.reader 0) [], .ok (.text "one")⟩ :: _) _ :=
    stored.effect (.readLine (r := ⟨["one", "two"], false⟩) rfl rfl rfl)
  have lawful : start.world.store.system.Lawful := FileSystem.flat_lawful fun _ _ => none
  exact ⟨_, _, read, handles_accounted lawful rfl rfl read, by decide, by decide⟩

end Pseudocode

/-
  Who drains a connection: the I/O thread, the workers and the sweeper of `src/tsa_server_pro.c`,
  one atomic operation at a time.

  Whoever turns the `scheduled` flag of a connection on puts it into the READY QUEUE; the worker
  that pops it drains its `ana_q`, clears the flag, and arms it again if packets are left.

  **Model** — the programs share their last part, ARMING.  The queues are FIFOs with atomic
  operations; whether a ready-queue push fails, and when a time slice ends, is left to the run.
-/
import TsAnalyzer.Lib.Run

namespace TsAnalyzer.Server

open Lib List Function

/-! ## Connections and threads -/

/-- `conn_t`, as far as it decides who drains it. -/
structure Conn (α : Type) where
  anaQ : List α
  scheduled : Bool
  closed : Bool
  pendingDrops : Nat

def Conn.new {α : Type} : Conn α := ⟨[], false, false, 0⟩

def anaQueueSize : Nat := 4096

/-- The I/O thread, the sweeper in the main loop, and the workers. -/
inductive Thread (ω : Type) where
  | io
  | sweeper
  | worker (w : ω)
  deriving DecidableEq

/-- Where a thread is in its code, by what comes next. -/
inductive Pc (ι α : Type) where
  | idle
  /-- `io_thread`: `was_empty = spsc_queue_is_empty(ana_q)`. -/
  | testEmpty (c : ι) (pkt : α)
  /-- `io_thread`: `spsc_queue_push(ana_q, pkt)`. -/
  | enqueue (c : ι) (pkt : α) (wasEmpty : Bool)
  /-- `worker_thread`: the load of `closed`. -/
  | popped (c : ι)
  /-- `worker_thread`: the exchange of `pending_drops`. -/
  | takeDrops (c : ι)
  /-- `worker_thread`: `spsc_queue_pop(ana_q, &pkt)`. -/
  | drain (c : ι)
  /-- `worker_thread`: `scheduled = false`. -/
  | clear (c : ι)
  /-- `worker_thread`: `if (!spsc_queue_is_empty(ana_q))`. -/
  | retest (c : ι)
  /-- Arming: `if (!scheduled)`. -/
  | load (c : ι)
  /-- Arming: `if (!exchange(scheduled, true))`. -/
  | exchange (c : ι)
  /-- Arming: `mpmc_queue_push(g_ready_queue, conn_idx)`. -/
  | publish (c : ι)
  /-- Arming: `scheduled = false` after a push that failed. -/
  | rollBack (c : ι)

/-- The connections, the ready queue and the threads. -/
structure State (ι ω α : Type) where
  conns : ι → Conn α
  ready : List ι
  pc : Thread ω → Pc ι α

variable {ι ω α : Type}

/-- New connections, and nobody at work. -/
def State.start : State ι ω α := ⟨fun _ => .new, [], fun _ => .idle⟩

variable [DecidableEq ι] [DecidableEq ω]

def State.setPc (s : State ι ω α) (t : Thread ω) (p : Pc ι α) : State ι ω α :=
  { s with pc := update s.pc t p }

def State.setConn (s : State ι ω α) (c : ι) (x : Conn α) : State ι ω α :=
  { s with conns := update s.conns c x }

/-- The next atomic operation of a thread. -/
def State.advance (s : State ι ω α) (t : Thread ω) (readyFull sliceOver : Bool) : State ι ω α :=
  match s.pc t with
  | .idle => s
  | .testEmpty c pkt => s.setPc t (.enqueue c pkt (s.conns c).anaQ.isEmpty)
  | .enqueue c pkt wasEmpty =>
    let x := s.conns c
    if anaQueueSize ≤ x.anaQ.length then
      (s.setConn c { x with pendingDrops := x.pendingDrops + 1 }).setPc t .idle
    else
      (s.setConn c { x with anaQ := x.anaQ ++ [pkt] }).setPc t (if wasEmpty then .load c else .idle)
  | .popped c => s.setPc t (if (s.conns c).closed then .clear c else .takeDrops c)
  | .takeDrops c => (s.setConn c { s.conns c with pendingDrops := 0 }).setPc t (.drain c)
  | .drain c =>
    match (s.conns c).anaQ with
    | [] => s.setPc t (.clear c)
    | _ :: rest =>
      (s.setConn c { s.conns c with anaQ := rest }).setPc t
        (if sliceOver then .clear c else .drain c)
  | .clear c => (s.setConn c { s.conns c with scheduled := false }).setPc t (.retest c)
  | .retest c => s.setPc t (if (s.conns c).anaQ.isEmpty then .idle else .load c)
  | .load c => s.setPc t (if (s.conns c).scheduled then .idle else .exchange c)
  | .exchange c =>
    (s.setConn c { s.conns c with scheduled := true }).setPc t
      (if (s.conns c).scheduled then .idle else .publish c)
  | .publish c =>
    if readyFull then s.setPc t (.rollBack c)
    else { s with ready := s.ready ++ [c] }.setPc t .idle
  | .rollBack c => (s.setConn c { s.conns c with scheduled := false }).setPc t .idle

/-- What happens next. -/
inductive Act (ι ω α : Type) where
  /-- The I/O thread has received a packet for a connection. -/
  | receive (c : ι) (pkt : α)
  /-- The I/O thread has seen the connection closed. -/
  | close (c : ι)
  /-- A worker pops the ready queue. -/
  | fetch (w : ω)
  /-- The sweeper finds that the last commit of an open connection is more than 100 ms ago. -/
  | sweep (c : ι)
  | advance (t : Thread ω) (readyFull sliceOver : Bool)

/-- One step; a thread that is at work begins nothing else. -/
def State.step (s : State ι ω α) : Act ι ω α → State ι ω α
  | .receive c pkt =>
    match s.pc .io with
    | .idle => s.setPc .io (.testEmpty c pkt)
    | _ => s
  | .close c =>
    match s.pc .io with
    | .idle => s.setConn c { s.conns c with closed := true }
    | _ => s
  | .fetch w =>
    match s.pc (.worker w), s.ready with
    | .idle, c :: rest => { s with ready := rest }.setPc (.worker w) (.popped c)
    | _, _ => s
  | .sweep c =>
    match s.pc .sweeper with
    | .idle => if (s.conns c).closed then s else s.setPc .sweeper (.load c)
    | _ => s
  | .advance t readyFull sliceOver => s.advance t readyFull sliceOver

/-- Everything a step can do: nothing, something a thread that was idle begins with, or the next
atomic operation of a thread. -/
inductive Effect (s : State ι ω α) : Act ι ω α → State ι ω α → Prop
  | stays (a : Act ι ω α) : Effect s a s
  | receives {c : ι} {pkt : α} (hidle : s.pc .io = .idle) :
    Effect s (.receive c pkt) (s.setPc .io (.testEmpty c pkt))
  | closes {c : ι} : Effect s (.close c) (s.setConn c { s.conns c with closed := true })
  | fetches {w : ω} {c : ι} {rest : List ι} (hidle : s.pc (.worker w) = .idle)
      (hr : s.ready = c :: rest) :
    Effect s (.fetch w) ({ s with ready := rest }.setPc (.worker w) (.popped c))
  | sweeps {c : ι} (hidle : s.pc .sweeper = .idle) :
    Effect s (.sweep c) (s.setPc .sweeper (.load c))
  | advances {t : Thread ω} {readyFull sliceOver : Bool} :
    Effect s (.advance t readyFull sliceOver) (s.advance t readyFull sliceOver)

theorem step_effect (s : State ι ω α) (a : Act ι ω α) : Effect s a (s.step a) := by
  cases a with
  | receive c pkt =>
    show Effect s _ (match s.pc .io with | .idle => _ | _ => _)
    split
    · next hidle => exact .receives hidle
    · exact .stays _
  | close c =>
    show Effect s _ (match s.pc .io with | .idle => _ | _ => _)
    split
    · exact .closes
    · exact .stays _
  | fetch w =>
    show Effect s _ (match s.pc (.worker w), s.ready with | .idle, c :: rest => _ | _, _ => _)
    split
    · next hidle hr => exact .fetches hidle hr
    · exact .stays _
  | sweep c =>
    show Effect s _ (match s.pc .sweeper with | .idle => _ | _ => _)
    split
    · next hidle =>
      split
      · exact .stays _
      · exact .sweeps hidle
    · exact .stays _
  | advance t readyFull sliceOver => exact .advances

/-! ## The token -/

/-- The connection whose token a thread holds. -/
def Pc.held : Pc ι α → Option ι
  | .popped c | .takeDrops c | .drain c | .clear c | .publish c | .rollBack c => some c
  | _ => none

/-- Where a token can be. -/
inductive Place (ω : Type) where
  | ready
  | thread (t : Thread ω)
  deriving DecidableEq

/-- Flags, ready queue and threads agree on where each connection's token is. -/
structure Tokens (s : State ι ω α) (token : ι → Option (Place ω)) : Prop where
  scheduled : ∀ c, (s.conns c).scheduled = (token c).isSome
  ready : ∀ c, s.ready.count c = if token c = some .ready then 1 else 0
  held : ∀ t c, (s.pc t).held = some c ↔ token c = some (.thread t)

theorem tokens_start : Tokens (State.start : State ι ω α) (fun _ => none) where
  scheduled := fun _ => rfl
  ready := fun _ => rfl
  held := fun _ _ => by constructor <;> intro h <;> cases h

namespace Tokens

variable {s : State ι ω α} {token : ι → Option (Place ω)} {t : Thread ω} {p : Pc ι α} {c : ι}
  {x : Conn α}

theorem setConn (h : Tokens s token) (hx : x.scheduled = (s.conns c).scheduled) :
    Tokens (s.setConn c x) token where
  scheduled := by
    intro c'
    show (update s.conns c x c').scheduled = _
    by_cases hc : c' = c
    · subst hc
      rw [update_self, hx, h.scheduled]
    · rw [update_of_ne hc, h.scheduled]
  ready := h.ready
  held := h.held

theorem setPc (h : Tokens s token) (hp : p.held = (s.pc t).held) : Tokens (s.setPc t p) token where
  scheduled := h.scheduled
  ready := h.ready
  held := by
    intro t' c'
    show (update s.pc t p t').held = _ ↔ _
    by_cases ht : t' = t
    · subst ht
      rw [update_self, hp, h.held]
    · rw [update_of_ne ht, h.held]

theorem keep (h : Tokens s token) (hx : x.scheduled = (s.conns c).scheduled)
    (hp : p.held = (s.pc t).held) : Tokens ((s.setConn c x).setPc t p) token :=
  (h.setConn hx).setPc hp

/-- **A move.**  When the flag and the ready-queue entries of one connection and the holding of one
thread change together, and no other thread held the token, all still agree. -/
theorem move (h : Tokens s token) {s' : State ι ω α} {v : Option (Place ω)}
    (hflag : (s'.conns c).scheduled = v.isSome)
    (hflags : ∀ c', c' ≠ c → (s'.conns c').scheduled = (s.conns c').scheduled)
    (hcount : s'.ready.count c = if v = some .ready then 1 else 0)
    (hcounts : ∀ c', c' ≠ c → s'.ready.count c' = s.ready.count c') (hpc : s'.pc = update s.pc t p)
    (hbefore : (s.pc t).held = none ∨ (s.pc t).held = some c)
    (hafter : ∀ c', p.held = some c' ↔ c' = c ∧ v = some (.thread t))
    (hothers : ∀ t', t' ≠ t → token c ≠ some (.thread t') ∧ v ≠ some (.thread t')) :
    Tokens s' (update token c v) := by
  refine ⟨fun c' => ?_, fun c' => ?_, fun t' c' => ?_⟩
  · by_cases hc : c' = c
    · rw [hc, update_self, hflag]
    · rw [hflags c' hc, update_of_ne hc, h.scheduled]
  · by_cases hc : c' = c
    · rw [hc, update_self, hcount]
    · rw [hcounts c' hc, update_of_ne hc, h.ready]
  · rw [hpc]
    by_cases ht : t' = t
    · subst ht
      rw [update_self, hafter]
      by_cases hc : c' = c
      · subst hc
        rw [update_self]
        exact and_iff_right rfl
      · rw [update_of_ne hc, ← h.held]
        refine iff_of_false (fun h' => hc h'.1) fun h' => ?_
        rcases hbefore with hnone | hsome
        · rw [hnone] at h'
          cases h'
        · rw [hsome] at h'
          exact hc (Option.some.inj h').symm
    · rw [update_of_ne ht, h.held]
      by_cases hc : c' = c
      · subst hc
        rw [update_self]
        exact iff_of_false (hothers t' ht).1 (hothers t' ht).2
      · rw [update_of_ne hc]

theorem elsewhere (h : Tokens s token) (ht : (s.pc t).held = some c) :
    ∀ t', t' ≠ t → token c ≠ some (.thread t') := by
  intro t' hne hc
  rw [(h.held t c).mp ht] at hc
  exact hne (Place.thread.inj (Option.some.inj hc)).symm

theorem stored (s : State ι ω α) (c : ι) (x : Conn α) (t : Thread ω) (p : Pc ι α) :
    (((s.setConn c x).setPc t p).conns c).scheduled = x.scheduled ∧
      ∀ c', c' ≠ c →
        (((s.setConn c x).setPc t p).conns c').scheduled = (s.conns c').scheduled := by
  have hself : ((s.setConn c x).setPc t p).conns c = x := update_self _ _ _
  have hothers : ∀ c', c' ≠ c → ((s.setConn c x).setPc t p).conns c' = s.conns c' :=
    fun c' hc => update_of_ne hc _ _
  exact ⟨by rw [hself], fun c' hc => by rw [hothers c' hc]⟩

theorem acquire (h : Tokens s token) (hfree : (s.pc t).held = none)
    (hs : (s.conns c).scheduled = false) (hp : p.held = some c) (hx : x.scheduled = true) :
    Tokens ((s.setConn c x).setPc t p) (update token c (some (.thread t))) := by
  have hnone : token c = none := by
    have := h.scheduled c
    rw [hs] at this
    exact Option.not_isSome_iff_eq_none.mp (by rw [← this]; decide)
  obtain ⟨hflag, hflags⟩ := stored s c x t p
  refine h.move (hflag.trans hx) hflags ?_ (fun _ _ => rfl) rfl (.inl hfree) ?_ ?_
  · show s.ready.count c = _
    rw [h.ready, hnone]
    simp
  · intro c'
    simp [hp, eq_comm]
  · intro t' ht
    simp [hnone, Ne.symm ht]

theorem release (h : Tokens s token) (ht : (s.pc t).held = some c) (hp : p.held = none)
    (hx : x.scheduled = false) : Tokens ((s.setConn c x).setPc t p) (update token c none) := by
  obtain ⟨hflag, hflags⟩ := stored s c x t p
  refine h.move (hflag.trans hx) hflags ?_ (fun _ _ => rfl) rfl (.inr ht) ?_ ?_
  · show s.ready.count c = _
    rw [h.ready, (h.held t c).mp ht]
    simp
  · intro c'
    simp [hp]
  · intro t' hne
    exact ⟨h.elsewhere ht t' hne, by simp⟩

theorem publish (h : Tokens s token) (ht : (s.pc t).held = some c) (hp : p.held = none) :
    Tokens ({ s with ready := s.ready ++ [c] }.setPc t p)
      (update token c (some .ready)) := by
  have hhere : token c = some (.thread t) := (h.held t c).mp ht
  refine h.move ?_ (fun _ _ => rfl) ?_ ?_ rfl (.inr ht) ?_ ?_
  · show (s.conns c).scheduled = _
    rw [h.scheduled, hhere]
    rfl
  · show (s.ready ++ [c]).count c = _
    rw [count_append, h.ready, hhere]
    simp
  · intro c' hc
    show (s.ready ++ [c]).count c' = _
    rw [count_append, count_singleton]
    simp [Ne.symm hc]
  · intro c'
    simp [hp]
  · intro t' hne
    exact ⟨h.elsewhere ht t' hne, by simp⟩

theorem fetch (h : Tokens s token) {rest : List ι} (hr : s.ready = c :: rest)
    (hfree : (s.pc t).held = none) (hp : p.held = some c) :
    Tokens ({ s with ready := rest }.setPc t p) (update token c (some (.thread t))) := by
  have hcount := h.ready c
  have hin : token c = some .ready := by
    by_contra hne
    rw [if_neg hne, hr, count_cons_self] at hcount
    omega
  refine h.move ?_ (fun _ _ => rfl) ?_ ?_ rfl (.inl hfree) ?_ ?_
  · show (s.conns c).scheduled = _
    rw [h.scheduled, hin]
    rfl
  · show rest.count c = _
    rw [if_pos hin, hr, count_cons_self] at hcount
    simpa using hcount
  · intro c' hc
    show rest.count c' = _
    rw [hr, count_cons_of_ne (Ne.symm hc)]
  · intro c'
    simp [hp, eq_comm]
  · intro t' hne
    simp [hin, Ne.symm hne]

end Tokens

variable {c : ι} {token : ι → Option (Place ω)} {s : State ι ω α}

theorem advance_tokens (h : Tokens s token) (t : Thread ω) (readyFull sliceOver : Bool) :
    ∃ token', Tokens (s.advance t readyFull sliceOver) token' := by
  unfold State.advance
  cases hpc : s.pc t with
  | idle => exact ⟨token, h⟩
  | testEmpty c pkt => exact ⟨token, h.setPc (by rw [hpc]; rfl)⟩
  | enqueue c pkt wasEmpty =>
    dsimp only
    split
    · exact ⟨token, h.keep rfl (by rw [hpc]; rfl)⟩
    · exact ⟨token, h.keep rfl (by rw [hpc]; cases wasEmpty <;> rfl)⟩
  | popped c => exact ⟨token, h.setPc (by rw [hpc]; cases (s.conns c).closed <;> rfl)⟩
  | takeDrops c => exact ⟨token, h.keep rfl (by rw [hpc]; rfl)⟩
  | drain c =>
    dsimp only
    split
    · exact ⟨token, h.setPc (by rw [hpc]; rfl)⟩
    · exact ⟨token, h.keep rfl (by rw [hpc]; cases sliceOver <;> rfl)⟩
  | clear | rollBack => exact ⟨_, h.release (by rw [hpc]; rfl) rfl rfl⟩
  | retest c => exact ⟨token, h.setPc (by rw [hpc]; cases (s.conns c).anaQ.isEmpty <;> rfl)⟩
  | load c => exact ⟨token, h.setPc (by rw [hpc]; cases (s.conns c).scheduled <;> rfl)⟩
  | exchange c =>
    dsimp only
    cases hs : (s.conns c).scheduled with
    | false => exact ⟨_, h.acquire (by rw [hpc]; rfl) hs rfl rfl⟩
    | true => exact ⟨token, h.keep hs.symm (by rw [hpc]; rfl)⟩
  | publish c =>
    cases readyFull with
    | false => exact ⟨_, h.publish (by rw [hpc]; rfl) rfl⟩
    | true => exact ⟨token, h.setPc (by rw [hpc]; rfl)⟩

variable {s' : State ι ω α} {a : Act ι ω α}

theorem effect_tokens (h : Tokens s token) (heff : Effect s a s') : ∃ token', Tokens s' token' := by
  cases heff with
  | stays _ => exact ⟨_, h⟩
  | receives hidle => exact ⟨_, h.setPc (by rw [hidle]; rfl)⟩
  | closes => exact ⟨_, h.setConn rfl⟩
  | fetches hidle hr => exact ⟨_, h.fetch hr (by rw [hidle]; rfl) rfl⟩
  | sweeps hidle => exact ⟨_, h.setPc (by rw [hidle]; rfl)⟩
  | advances => exact advance_tokens h _ _ _

theorem run_tokens (as : List (Act ι ω α)) :
    ∃ token, Tokens (as.foldl State.step State.start) token := by
  induction as using reverseRecOn with
  | nil => exact ⟨_, tokens_start⟩
  | append_singleton as a ih =>
    obtain ⟨token, h⟩ := ih
    rw [foldl_append]
    exact effect_tokens h (step_effect _ a)

/-! ## Exclusive draining -/

/-- Between popping a connection index and storing `scheduled = false`. -/
def Pc.Serving (c : ι) : Pc ι α → Prop
  | .popped c' | .takeDrops c' | .drain c' | .clear c' => c' = c
  | _ => False

omit [DecidableEq ι] in
theorem Pc.Serving.held {p : Pc ι α} (h : p.Serving c) : p.held = some c := by
  cases p with
  | popped | takeDrops | drain | clear => exact congrArg some h
  | _ => exact absurd h id

theorem Tokens.holder_unique (h : Tokens s token) {t t' : Thread ω} (ht : (s.pc t).held = some c)
    (ht' : (s.pc t').held = some c) : t = t' := by
  by_contra hne
  exact h.elsewhere ht t' (Ne.symm hne) ((h.held t' c).mp ht')

/-- **Exclusive draining.**  Whatever the interleaving, and whichever pushes to the ready queue
fail: at most one worker serves a connection, the ready queue holds it at most once, and not while
it is served; so at most one thread is ever about to pop its `ana_q`. -/
theorem exclusive_draining (as : List (Act ι ω α)) (c : ι) :
    let s := as.foldl State.step State.start
    (∀ w w', (s.pc (.worker w)).Serving c → (s.pc (.worker w')).Serving c → w = w') ∧
      s.ready.count c ≤ 1 ∧
      (∀ t, (s.pc t).Serving c → s.ready.count c = 0) ∧
      ∀ t t', s.pc t = .drain c → s.pc t' = .drain c → t = t' := by
  intro s
  obtain ⟨token, h⟩ : ∃ token, Tokens s token := run_tokens as
  refine ⟨?_, ?_, ?_, ?_⟩
  · intro w w' hw hw'
    exact Thread.worker.inj (h.holder_unique hw.held hw'.held)
  · rw [h.ready]
    split <;> omega
  · intro t ht
    rw [h.ready, (h.held t c).mp ht.held]
    exact if_neg (by simp)
  · intro t t' ht ht'
    exact h.holder_unique (by rw [ht]; rfl) (by rw [ht']; rfl)

/-! ## Wake-ups -/

/-- The connection a thread is in the middle of its code for. -/
def Pc.conn : Pc ι α → Option ι
  | .idle => none
  | .testEmpty c _ | .enqueue c _ _ | .popped c | .takeDrops c | .drain c | .clear c | .retest c
  | .load c | .exchange c | .publish c | .rollBack c => some c

/-- No wake-up is lost: with nobody in the middle of its code for the connection, packets in `ana_q`
mean that it is scheduled. -/
def NoLostWakeup (c : ι) (s : State ι ω α) : Prop :=
  (∀ t, (s.pc t).conn ≠ some c) → (s.conns c).anaQ ≠ [] → (s.conns c).scheduled = true

/-- About to see for itself whether the connection needs arming. -/
def Pc.Arming (c : ι) : Pc ι α → Prop
  | .retest c' | .load c' | .exchange c' => c' = c
  | _ => False

/-- The push to the ready queue of this step fails. -/
def Act.readyFull : Act ι ω α → Bool
  | .advance _ readyFull _ => readyFull
  | _ => false

/-- The I/O thread saw `ana_q` non-empty, and now its packet goes into a queue that was drained in
between, is not scheduled, and that nobody is about to look at. -/
def LosesWakeup (c : ι) (s : State ι ω α) (a : Act ι ω α) : Prop :=
  ∃ pkt readyFull sliceOver, a = .advance .io readyFull sliceOver ∧
    s.pc .io = .enqueue c pkt false ∧ (s.conns c).anaQ = [] ∧ (s.conns c).scheduled = false ∧
    ∀ t, ¬ (s.pc t).Arming c

/-- Program points of a thread while the ready queue is never full: only the I/O thread pushes
packets, and nobody rolls back. -/
def Pc.Proper (t : Thread ω) : Pc ι α → Prop
  | .testEmpty _ _ | .enqueue _ _ _ => t = .io
  | .rollBack _ => False
  | _ => True

omit [DecidableEq ι] in
theorem setPc_proper (h : ∀ t, (s.pc t).Proper t) {t : Thread ω} {p : Pc ι α} (hp : p.Proper t)
    (t' : Thread ω) : ((s.setPc t p).pc t').Proper t' := by
  show (update s.pc t p t').Proper t'
  by_cases ht : t' = t
  · subst ht
    rwa [update_self]
  · rw [update_of_ne ht]
    exact h t'

theorem advance_proper (h : ∀ t, (s.pc t).Proper t) (t : Thread ω) (sliceOver : Bool)
    (t' : Thread ω) : ((s.advance t false sliceOver).pc t').Proper t' := by
  have ht := h t
  unfold State.advance
  cases hpc : s.pc t with
  | idle => exact h t'
  | testEmpty c pkt =>
    rw [hpc] at ht
    exact setPc_proper (p := .enqueue c pkt _) h ht t'
  | enqueue c pkt wasEmpty =>
    dsimp only
    split
    · exact setPc_proper (s := s.setConn c _) h (by trivial) t'
    · exact setPc_proper (s := s.setConn c _) h (by cases wasEmpty <;> trivial) t'
  | popped c => exact setPc_proper h (by cases (s.conns c).closed <;> trivial) t'
  | takeDrops c => exact setPc_proper (s := s.setConn c _) h (by trivial) t'
  | drain c =>
    dsimp only
    split
    · exact setPc_proper h (by trivial) t'
    · exact setPc_proper (s := s.setConn c _) h (by cases sliceOver <;> trivial) t'
  | clear c => exact setPc_proper (s := s.setConn c _) h (by trivial) t'
  | retest c => exact setPc_proper h (by cases (s.conns c).anaQ.isEmpty <;> trivial) t'
  | load c => exact setPc_proper h (by cases (s.conns c).scheduled <;> trivial) t'
  | exchange c =>
    exact setPc_proper (s := s.setConn c _) h (by cases (s.conns c).scheduled <;> trivial) t'
  | publish c => exact setPc_proper (s := { s with ready := _ }) h (by trivial) t'
  | rollBack c =>
    rw [hpc] at ht
    exact absurd ht id

theorem effect_proper (h : ∀ t, (s.pc t).Proper t) (ha : a.readyFull = false) (heff : Effect s a s')
    (t : Thread ω) : (s'.pc t).Proper t := by
  cases heff with
  | stays | closes => exact h t
  | receives _ => exact setPc_proper h (by rfl) t
  | fetches _ _ => exact setPc_proper (s := { s with ready := _ }) h (by trivial) t
  | sweeps _ => exact setPc_proper h (by trivial) t
  | advances =>
    rw [Act.readyFull] at ha
    rw [ha]
    exact advance_proper h _ _ t

/-- Packets in the queue of a connection that is not scheduled are about to be seen. -/
def Watched (c : ι) (s : State ι ω α) : Prop :=
  (s.conns c).anaQ ≠ [] → (s.conns c).scheduled = true ∨ ∃ t, (s.pc t).Arming c

namespace Watched

variable {s : State ι ω α} {c c' : ι} {t : Thread ω} {p : Pc ι α} {x : Conn α}

omit [DecidableEq ι] in
theorem setPc (h : Watched c s) (ht : ¬ (s.pc t).Arming c) : Watched c (s.setPc t p) := by
  intro hq
  refine (h hq).imp id ?_
  rintro ⟨t', ht'⟩
  have hne : t' ≠ t := fun he => ht (he ▸ ht')
  exact ⟨t', by rwa [show (s.setPc t p).pc t' = s.pc t' from update_of_ne hne _ _]⟩

omit [DecidableEq ι] in
theorem arming (hp : p.Arming c) : Watched c (s.setPc t p) := by
  intro _
  exact .inr ⟨t, by rwa [show (s.setPc t p).pc t = p from update_self _ _ _]⟩

omit [DecidableEq ω] in
theorem setConn (h : Watched c s) (hx : c' = c → (x.anaQ ≠ [] → (s.conns c).anaQ ≠ []) ∧
      ((s.conns c).scheduled = true → x.scheduled = true)) : Watched c (s.setConn c' x) := by
  by_cases hc : c' = c
  · subst hc
    have hself : (s.setConn c' x).conns c' = x := update_self _ _ _
    intro hq
    rw [hself] at hq ⊢
    exact (h ((hx rfl).1 hq)).imp (hx rfl).2 id
  · have hother : (s.setConn c' x).conns c = s.conns c := update_of_ne (Ne.symm hc) _ _
    intro hq
    rw [hother] at hq ⊢
    exact h hq

end Watched

theorem advance_watched (hproper : ∀ t, (s.pc t).Proper t) (h : Watched c s) (t : Thread ω)
    (sliceOver : Bool) (hsafe : ¬ LosesWakeup c s (.advance t false sliceOver)) :
    Watched c (s.advance t false sliceOver) := by
  have ht := hproper t
  unfold State.advance
  cases hpc : s.pc t with
  | idle => exact h
  | testEmpty | popped => exact h.setPc (by rw [hpc]; exact id)
  | enqueue c' pkt wasEmpty =>
    have hno : ¬ (s.pc t).Arming c := by rw [hpc]; exact id
    dsimp only
    split
    · exact Watched.setPc (h.setConn fun hc => hc ▸ ⟨id, id⟩) hno
    · by_cases hc : c' = c
      · subst hc
        cases wasEmpty with
        | true => exact Watched.arming rfl
        | false =>
          -- Emptied since the test or not: the flag is set, or some thread is arming.
          have hseen : (s.conns c').scheduled = true ∨ ∃ t, (s.pc t).Arming c' := by
            by_contra hunseen
            push Not at hunseen
            by_cases hq : (s.conns c').anaQ = []
            · rw [hpc] at ht
              have hio : t = .io := ht
              subst hio
              exact hsafe ⟨pkt, false, sliceOver, rfl, hpc, hq, by simpa using hunseen.1, hunseen.2⟩
            · rcases h hq with hs | ⟨t', ht'⟩
              · exact hunseen.1 hs
              · exact hunseen.2 t' ht'
          refine Watched.setPc (s := s.setConn c' _) (fun _ => ?_) hno
          rwa [show (s.setConn c' _).conns c' = _ from update_self _ _ _]
      · exact Watched.setPc (h.setConn fun he => absurd he hc) hno
  | takeDrops c' =>
    exact Watched.setPc (h.setConn fun hc => hc ▸ ⟨id, id⟩)
      (by show ¬ (s.pc t).Arming c; rw [hpc]; exact id)
  | drain c' =>
    have hno : ¬ (s.pc t).Arming c := by rw [hpc]; exact id
    dsimp only
    split
    · exact h.setPc hno
    · next hq =>
      refine Watched.setPc (h.setConn fun hc => ?_) hno
      subst hc
      exact ⟨fun _ => by rw [hq]; exact cons_ne_nil _ _, id⟩
  | clear c' =>
    by_cases hc : c' = c
    · exact Watched.arming hc
    · exact Watched.setPc (h.setConn fun he => absurd he hc)
        (by show ¬ (s.pc t).Arming c; rw [hpc]; exact id)
  | retest c' =>
    by_cases hc : c' = c
    · subst hc
      dsimp only
      split
      · next hq => exact fun hne => absurd (isEmpty_iff.mp hq) hne
      · exact Watched.arming rfl
    · exact h.setPc (by rw [hpc]; exact hc)
  | load c' =>
    by_cases hc : c' = c
    · subst hc
      dsimp only
      split
      · next hs => exact fun _ => .inl hs
      · exact Watched.arming rfl
    · exact h.setPc (by rw [hpc]; exact hc)
  | exchange c' =>
    by_cases hc : c' = c
    · subst hc
      intro _
      left
      show (update s.conns c' _ c').scheduled = true
      rw [update_self]
    · exact Watched.setPc (h.setConn fun he => absurd he hc)
        (by show ¬ (s.pc t).Arming c; rw [hpc]; exact hc)
  | publish c' =>
    exact Watched.setPc (s := { s with ready := _ }) h
      (by show ¬ (s.pc t).Arming c; rw [hpc]; exact id)
  | rollBack c' =>
    rw [hpc] at ht
    exact absurd ht id

theorem effect_watched (hproper : ∀ t, (s.pc t).Proper t) (h : Watched c s)
    (ha : a.readyFull = false) (hsafe : ¬ LosesWakeup c s a) (heff : Effect s a s') :
    Watched c s' := by
  have hfree : ∀ {t}, s.pc t = .idle → ¬ (s.pc t).Arming c := by
    intro t ht
    rw [ht]
    exact id
  cases heff with
  | stays _ => exact h
  | receives hidle => exact h.setPc (hfree hidle)
  | closes => exact h.setConn fun hc => hc ▸ ⟨id, id⟩
  | fetches hidle _ => exact Watched.setPc (s := { s with ready := _ }) h (hfree hidle)
  | sweeps hidle => exact h.setPc (hfree hidle)
  | advances =>
    rw [Act.readyFull] at ha
    rw [ha] at hsafe ⊢
    exact advance_watched hproper h _ _ hsafe

omit [DecidableEq ι] [DecidableEq ω] in
theorem Watched.noLostWakeup (h : Watched c s) : NoLostWakeup c s := by
  intro hidle hq
  rcases h hq with hs | ⟨t, ht⟩
  · exact hs
  · have hconn := hidle t
    cases hpc : s.pc t with
    | retest | load | exchange => rw [hpc] at ht hconn; exact absurd (congrArg some ht) hconn
    | _ => rw [hpc] at ht; exact absurd ht id

/-- And a step that loses a wake-up leaves nobody at work for the connection: the flag is clear, so
no thread holds a token; nobody is arming; and the I/O thread, the only producer, is done. -/
theorem LosesWakeup.lost (htokens : Tokens s token) (hproper : ∀ t, (s.pc t).Proper t)
    (h : LosesWakeup c s a) : ¬ NoLostWakeup c (s.step a) := by
  obtain ⟨pkt, readyFull, sliceOver, rfl, hpc, hq, hs, harming⟩ := h
  have hstep : s.step (.advance .io readyFull sliceOver) =
      (s.setConn c { s.conns c with anaQ := [pkt] }).setPc .io .idle := by
    show s.advance .io readyFull sliceOver = _
    simp [State.advance, hpc, hq, anaQueueSize]
  have hheld : ∀ t, (s.pc t).held ≠ some c := by
    intro t ht
    have hsome := htokens.scheduled c
    rw [hs, (htokens.held t c).mp ht] at hsome
    cases hsome
  intro hno
  rw [hstep] at hno
  have hconn : ((s.setConn c { s.conns c with anaQ := [pkt] }).setPc .io .idle).conns c =
      { s.conns c with anaQ := [pkt] } := update_self _ _ _
  have hsched := hno (fun t => ?_) (by rw [hconn]; exact cons_ne_nil _ _)
  · rw [hconn] at hsched
    exact absurd (hs.symm.trans hsched) (by decide)
  · show (update s.pc .io .idle t).conn ≠ some c
    by_cases ht : t = .io
    · rw [ht, update_self]
      exact fun he => by cases he
    · rw [update_of_ne ht]
      have h1 := harming t
      have h2 := hheld t
      have h3 := hproper t
      cases hp : s.pc t with
      | idle => exact fun he => by cases he
      | testEmpty | enqueue => rw [hp] at h3; exact absurd h3 ht
      | retest | load | exchange => rw [hp] at h1; exact fun he => h1 (Option.some.inj he)
      | popped | takeDrops | drain | clear | publish | rollBack => rw [hp] at h2; exact h2

theorem run_proper {as : List (Act ι ω α)} (hready : ∀ a ∈ as, a.readyFull = false)
    (t : Thread ω) : ((as.foldl State.step State.start).pc t).Proper t := by
  induction as using reverseRecOn generalizing t with
  | nil => trivial
  | append_singleton as a ih =>
    rw [foldl_append]
    exact effect_proper (ih fun b hb => hready b (mem_append_left _ hb))
      (hready a (mem_append_right _ (mem_singleton_self a))) (step_effect _ a) t

/-- **Wake-ups.**  Over runs in which the ready queue is never full: no reachable state has lost a
wake-up exactly when no push of the I/O thread that saw `ana_q` non-empty ends in a queue drained
since, with the flag clear and nobody about to look. -/
theorem wakeups_kept_iff (c : ι) (as : List (Act ι ω α)) (hready : ∀ a ∈ as, a.readyFull = false) :
    (∀ pre, pre <+: as → NoLostWakeup c (pre.foldl State.step State.start)) ↔
      Along (fun s a => ¬ LosesWakeup c s a) State.step State.start as := by
  have hproper : ∀ pre, pre <+: as → ∀ t, ((pre.foldl State.step State.start).pc t).Proper t :=
    fun pre hpre => run_proper fun a ha => hready a (hpre.subset ha)
  constructor
  · intro h
    refine along_iff_at.mpr fun pre a hpre hloses => ?_
    obtain ⟨token, htokens⟩ := run_tokens (ι := ι) (ω := ω) (α := α) pre
    refine hloses.lost htokens (hproper pre ((prefix_append _ _).trans hpre)) ?_
    have := h (pre ++ [a]) hpre
    rwa [foldl_append] at this
  · intro h pre hpre
    refine Watched.noLostWakeup ?_
    induction pre using reverseRecOn with
    | nil => exact fun hq => absurd rfl hq
    | append_singleton pre a ih =>
      have hpre' := (prefix_append pre [a]).trans hpre
      rw [foldl_append]
      exact effect_watched (hproper pre hpre') (ih hpre')
        (hready a (hpre.subset (mem_append_right _ (mem_singleton_self a))))
        (along_iff_at.mp h pre a hpre) (step_effect _ a)

/-- One connection, one worker: a packet is pushed and its connection armed. -/
def armRun : List (Act Unit Unit Nat) :=
  [.receive () 1, .advance .io false false, .advance .io false false, .advance .io false false,
    .advance .io false false, .advance .io false false]

/-- Then the I/O thread tests for the second packet while the first is queued; the worker drains the
queue, clears the flag, finds the queue empty; and the second packet is pushed. -/
def lostRun : List (Act Unit Unit Nat) :=
  armRun ++ [.receive () 2, .advance .io false false, .fetch (), .advance (.worker ()) false false,
    .advance (.worker ()) false false, .advance (.worker ()) false false,
    .advance (.worker ()) false false, .advance (.worker ()) false false,
    .advance (.worker ()) false false, .advance .io false false]

theorem armRun_keeps : (∀ a ∈ armRun, a.readyFull = false) ∧
    ∀ pre, pre <+: armRun → NoLostWakeup () (pre.foldl State.step State.start) := by
  have hready : ∀ a ∈ armRun, a.readyFull = false := by decide
  refine ⟨hready, (wakeups_kept_iff () armRun hready).mpr ?_⟩
  -- The only push of the run saw the queue empty.
  refine ⟨?_, ?_, ?_, ?_, ?_, ?_, trivial⟩ <;>
    (rintro ⟨pkt, readyFull, sliceOver, -, hpc, -⟩; cases hpc)

/-- The queue holds a packet, the flag is clear and all threads are idle: every later push finds the
queue non-empty, so only the sweeper will arm the connection. -/
theorem lostRun_loses : (∀ a ∈ lostRun, a.readyFull = false) ∧
    ¬ NoLostWakeup () (lostRun.foldl State.step State.start) := by
  refine ⟨by decide, fun h => ?_⟩
  have hidle : ∀ t, ((lostRun.foldl State.step State.start).pc t).conn ≠ some () := by
    intro t
    cases t with
    | io | sweeper => decide
    | worker w => cases w; decide
  exact absurd (h hidle (by decide)) (by decide)

end TsAnalyzer.Server

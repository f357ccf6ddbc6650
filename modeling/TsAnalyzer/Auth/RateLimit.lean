/-
  The rate limiter (`tsa_auth_check_ratelimit`, `src/tsa_auth.c`): does one client feel another?

  Every client has a token bucket in ONE table of 1024 entries that never shrinks, and whose entries
  keep the first 63 characters of an id only.  So a client feels the others if the table is FULL
  when it first calls, or if its id has 63 characters and a LONGER one that starts with them came
  first.
-/
import TsAnalyzer.Lib.Run
import TsAnalyzer.Lib.Text
import TsAnalyzer.Lib.Word

namespace TsAnalyzer.Auth

open Lib List

/-! ## Program -/

def maxIdTrack : Nat := 1024

structure TokenArith (τ : Type) where
  /-- `BUCKET_CAPACITY`. -/
  full : τ
  /-- Add what these nanoseconds are worth, up to the capacity. -/
  refill : τ → Nat → τ
  /-- `tokens >= 1.0`. -/
  hasOne : τ → Bool
  /-- `tokens -= 1.0`. -/
  take : τ → τ
  full_accepts : ∀ ns, hasOne (refill full ns) = true

/-- Exact arithmetic: ten tokens a second are one in 10^8 ns, so tokens are counted in parts of
    10^-8. -/
def exactTokens : TokenArith Nat where
  full := 10 ^ 10
  refill tokens ns := min (tokens + ns) (10 ^ 10)
  hasOne tokens := 10 ^ 8 ≤ tokens
  take tokens := tokens - 10 ^ 8
  full_accepts ns := by simp

/-- `rate_bucket_t`. -/
structure Bucket (τ : Type) where
  id : Text
  tokens : τ
  lastUpdateNs : Nat

/-- A call, with what the clock shows: when a new bucket is filled, and when tokens are counted. -/
structure Call where
  id : Text
  createdNs : Nat
  nowNs : Nat

variable {τ : Type} (A : TokenArith τ)

/-- What is done with the bucket that was found. -/
def Bucket.draw (b : Bucket τ) (nowNs : Nat) : Bucket τ × Bool :=
  let tokens := A.refill b.tokens (sub64 nowNs b.lastUpdateNs)
  if A.hasOne tokens then (⟨b.id, A.take tokens, nowNs⟩, true) else (⟨b.id, tokens, nowNs⟩, false)

/-- The loop over the table: the first bucket of this id answers. -/
def findBucket (call : Call) : List (Bucket τ) → Option (List (Bucket τ) × Bool)
  | [] => none
  | b :: bs =>
    if b.id = call.id then some ((b.draw A call.nowNs).1 :: bs, (b.draw A call.nowNs).2)
    else (findBucket call bs).map fun r => (b :: r.1, r.2)

/-- `strncpy(b->id, client_id, sizeof(b->id) - 1)`. -/
def bucketName (id : Text) : Text := id.take 63

def newBucket (call : Call) : Bucket τ := ⟨bucketName call.id, A.full, call.createdNs⟩

def tsaAuthCheckRatelimit (table : List (Bucket τ)) (call : Call) : List (Bucket τ) × Bool :=
  match findBucket A call table with
  | some r => r
  | none =>
    if table.length < maxIdTrack then
      (table ++ [((newBucket A call).draw A call.nowNs).1],
        ((newBucket A call).draw A call.nowNs).2)
    else (table, false)

/-! ## Specification -/

/-- The limiter, and who got which answer. -/
def limitPush (table : List (Bucket τ)) (call : Call) : List (Bucket τ) × List (Text × Bool) :=
  ((tsaAuthCheckRatelimit A table call).1, [(call.id, (tsaAuthCheckRatelimit A table call).2)])

def answersTo (c : Text) (out : List (Text × Bool)) : List Bool :=
  (out.filter (·.1 = c)).map (·.2)

def callsOf (c : Text) (h : List Call) : List Call := h.filter (·.id = c)

def tableAfter (h : List Call) : List (Bucket τ) := (run (limitPush A) [] h).1

/-- **Isolation**: among the others the client gets the answers it gets alone. -/
def Isolated (c : Text) (h : List Call) : Prop :=
  answersTo c (run (limitPush A) [] h).2 = answersTo c (run (limitPush A) [] (callsOf c h)).2

/-! ## One call -/

/-- The bucket that answers to this id. -/
def bucketOf (c : Text) (table : List (Bucket τ)) : Option (Bucket τ) := table.find? (·.id = c)

theorem bucketOf_cons (c : Text) (b : Bucket τ) (table : List (Bucket τ)) :
    bucketOf c (b :: table) = if b.id = c then some b else bucketOf c table := by
  rw [bucketOf, find?_cons]
  by_cases h : b.id = c
  · simp [h]
  · simp [h, bucketOf]

theorem bucketOf_concat (c : Text) (table : List (Bucket τ)) (b : Bucket τ) :
    bucketOf c (table ++ [b]) = (bucketOf c table).or (if b.id = c then some b else none) := by
  rw [bucketOf, find?_append]
  congr 1
  exact bucketOf_cons c b []

theorem bucketOf_eq_none {c : Text} {table : List (Bucket τ)} (h : c ∉ table.map (·.id)) :
    bucketOf c table = none := by
  rw [bucketOf, find?_eq_none]
  exact fun b hb hid => h (of_decide_eq_true hid ▸ mem_map_of_mem hb)

theorem draw_id (b : Bucket τ) (nowNs : Nat) : (b.draw A nowNs).1.id = b.id := by
  rw [Bucket.draw]
  split
  · rfl
  · rfl

theorem newBucket_accepts (call : Call) : ((newBucket A call).draw A call.nowNs).2 = true := by
  rw [Bucket.draw]
  exact congrArg Prod.snd (if_pos (A.full_accepts _))

theorem findBucket_spec (call : Call) : ∀ table : List (Bucket τ), match bucketOf call.id table with
    | none => findBucket A call table = none
    | some b => ∃ table', findBucket A call table = some (table', (b.draw A call.nowNs).2) ∧
        table'.map (·.id) = table.map (·.id) ∧
        ∀ c, bucketOf c table' =
          if c = call.id then some (b.draw A call.nowNs).1 else bucketOf c table := by
  intro table
  induction table with
  | nil => rfl
  | cons b bs ih =>
    rw [bucketOf_cons, findBucket]
    by_cases hb : b.id = call.id
    · rw [if_pos hb, if_pos hb]
      refine ⟨_, rfl, by rw [map_cons, map_cons, draw_id], fun c => ?_⟩
      rw [bucketOf_cons, bucketOf_cons, draw_id, hb]
      by_cases hc : c = call.id
      · rw [if_pos hc.symm, if_pos hc]
      · rw [if_neg (Ne.symm hc), if_neg hc, if_neg (Ne.symm hc)]
    · rw [if_neg hb, if_neg hb]
      cases hfound : bucketOf call.id bs with
      | none =>
        rw [hfound] at ih
        show Option.map _ (findBucket A call bs) = none
        rw [show findBucket A call bs = none from ih]
        rfl
      | some b' =>
        rw [hfound] at ih
        obtain ⟨bs', hbs', hids, hrest⟩ := ih
        refine ⟨b :: bs', by rw [hbs']; rfl, by rw [map_cons, map_cons, hids], ?_⟩
        intro c
        rw [bucketOf_cons, bucketOf_cons, hrest]
        by_cases hbc : b.id = c
        · rw [if_pos hbc, if_neg (fun hc => hb (hbc.trans hc)), if_pos hbc]
        · rw [if_neg hbc, if_neg hbc]

theorem length_eq_of_ids {α : Type} {l : List α} {id : α → Text} {table : List (Bucket τ)}
    (h : table.map (·.id) = l.map id) : table.length = l.length := by
  have hlength := congrArg List.length h
  rw [length_map, length_map] at hlength
  exact hlength

/-- **What a call does.** -/
inductive CallEffect (table : List (Bucket τ)) (call : Call) : List (Bucket τ) × Bool → Prop
  /-- A bucket answers. -/
  | found (b : Bucket τ) (table' : List (Bucket τ)) (hb : bucketOf call.id table = some b)
      (hids : table'.map (·.id) = table.map (·.id))
      (hrest : ∀ c, bucketOf c table' =
        if c = call.id then some (b.draw A call.nowNs).1 else bucketOf c table) :
    CallEffect table call (table', (b.draw A call.nowNs).2)
  /-- A new bucket is made, and answers. -/
  | added (hnone : bucketOf call.id table = none) (hroom : table.length < maxIdTrack) :
    CallEffect table call (table ++ [((newBucket A call).draw A call.nowNs).1], true)
  /-- There is no room for one. -/
  | refused (hnone : bucketOf call.id table = none) (hfull : maxIdTrack ≤ table.length) :
    CallEffect table call (table, false)

theorem call_effect (table : List (Bucket τ)) (call : Call) :
    CallEffect A table call (tsaAuthCheckRatelimit A table call) := by
  have hspec := findBucket_spec A call table
  rw [tsaAuthCheckRatelimit]
  cases hb : bucketOf call.id table with
  | none =>
    rw [hb] at hspec
    rw [show findBucket A call table = none from hspec]
    show CallEffect A table call (if table.length < maxIdTrack then _ else _)
    split
    · rename_i hroom
      rw [newBucket_accepts]
      exact .added hb hroom
    · rename_i hfull
      exact .refused hb (Nat.le_of_not_lt hfull)
  | some b =>
    rw [hb] at hspec
    obtain ⟨table', hfound, hids, hrest⟩ := hspec
    rw [hfound]
    exact .found b table' hb hids hrest

/-! ## What a client gets -/

def bucketAnswers (b : Bucket τ) : List Call → List Bool
  | [] => []
  | call :: calls => (b.draw A call.nowNs).2 :: bucketAnswers (b.draw A call.nowNs).1 calls

theorem answersTo_cons (c : Text) (table : List (Bucket τ)) (call : Call) (h : List Call) :
    answersTo c (run (limitPush A) table (call :: h)).2 =
      (if call.id = c then [(tsaAuthCheckRatelimit A table call).2] else []) ++
        answersTo c (run (limitPush A) (tsaAuthCheckRatelimit A table call).1 h).2 := by
  show answersTo c ((call.id, (tsaAuthCheckRatelimit A table call).2) :: _) = _
  rw [answersTo, filter_cons]
  by_cases hc : call.id = c
  · simp [hc, answersTo, limitPush]
  · simp [hc, answersTo, limitPush]

theorem callsOf_cons (c : Text) (call : Call) (h : List Call) :
    callsOf c (call :: h) = if call.id = c then call :: callsOf c h else callsOf c h := by
  rw [callsOf, filter_cons]
  by_cases hc : call.id = c
  · simp [hc, callsOf]
  · simp [hc, callsOf]

theorem found_answers (c : Text) (h : List Call) (table : List (Bucket τ)) (b : Bucket τ)
    (hb : bucketOf c table = some b) :
    answersTo c (run (limitPush A) table h).2 = bucketAnswers A b (callsOf c h) := by
  induction h generalizing table b with
  | nil => rfl
  | cons call h ih =>
    have heff := call_effect A table call
    rw [answersTo_cons, callsOf_cons]
    generalize tsaAuthCheckRatelimit A table call = r at heff
    by_cases hc : call.id = c
    · subst hc
      rw [if_pos rfl, if_pos rfl]
      cases heff with
      | found b' table' hb' hids hrest =>
        rw [hb] at hb'
        cases hb'
        rw [ih table' (b.draw A call.nowNs).1 (by rw [hrest, if_pos rfl])]
        rfl
      | added hnone hroom => rw [hb] at hnone; cases hnone
      | refused hnone hfull => rw [hb] at hnone; cases hnone
    · rw [if_neg hc, if_neg hc, nil_append]
      cases heff with
      | found b' table' hb' hids hrest =>
        exact ih table' b (by rw [hrest, if_neg (Ne.symm hc), hb])
      | added hnone hroom => exact ih _ b (by rw [bucketOf_concat, hb]; rfl)
      | refused hnone hfull => exact ih table b hb

theorem refused_answers (c : Text) (h : List Call) (table : List (Bucket τ))
    (hnone : bucketOf c table = none) (hfull : maxIdTrack ≤ table.length) :
    answersTo c (run (limitPush A) table h).2 = replicate (callsOf c h).length false := by
  induction h generalizing table with
  | nil => rfl
  | cons call h ih =>
    have heff := call_effect A table call
    rw [answersTo_cons, callsOf_cons]
    generalize tsaAuthCheckRatelimit A table call = r at heff
    by_cases hc : call.id = c
    · subst hc
      rw [if_pos rfl, if_pos rfl]
      cases heff with
      | found b table' hb hids hrest => rw [hnone] at hb; cases hb
      | added hnone' hroom => omega
      | refused hnone' hfull' =>
        rw [ih table hnone hfull]
        rfl
    · rw [if_neg hc, if_neg hc, nil_append]
      cases heff with
      | found b table' hb hids hrest =>
        exact ih table' (by rw [hrest, if_neg (Ne.symm hc), hnone])
          (by rw [length_eq_of_ids hids]; exact hfull)
      | added hnone' hroom => omega
      | refused hnone' hfull' => exact ih table hnone hfull

theorem answersTo_length (c : Text) (h : List Call) (table : List (Bucket τ)) :
    (answersTo c (run (limitPush A) table h).2).length = (callsOf c h).length := by
  induction h generalizing table with
  | nil => rfl
  | cons call h ih =>
    rw [answersTo_cons, callsOf_cons, length_append, ih]
    split
    · exact Nat.add_comm 1 _
    · exact Nat.zero_add _

theorem answersTo_append (c : Text) (pre h : List Call) :
    answersTo c (run (limitPush A) [] (pre ++ h)).2 =
      answersTo c (run (limitPush A) [] pre).2 ++
        answersTo c (run (limitPush A) (tableAfter A pre) h).2 := by
  rw [run_append, answersTo, filter_append, map_append]
  rfl

theorem callsOf_append (c : Text) (pre h : List Call) :
    callsOf c (pre ++ h) = callsOf c pre ++ callsOf c h := filter_append ..

theorem callsOf_idem (c : Text) (h : List Call) : callsOf c (callsOf c h) = callsOf c h := by
  rw [callsOf, callsOf, filter_filter]
  simp

theorem tableAfter_snoc (h : List Call) (call : Call) :
    tableAfter A (h ++ [call]) = (tsaAuthCheckRatelimit A (tableAfter A h) call).1 := by
  rw [tableAfter, run_append]
  rfl

/-! ## Ids that fit their entry -/

variable {call : Call} {table : List (Bucket τ)}

theorem first_answers (hshort : call.id.length ≤ 63)
    (hnone : bucketOf call.id table = none) (hroom : table.length < maxIdTrack) (h : List Call) :
    answersTo call.id (run (limitPush A) table (call :: h)).2 =
      bucketAnswers A (newBucket A call) (callsOf call.id (call :: h)) := by
  have heff := call_effect A table call
  rw [answersTo_cons, callsOf_cons, if_pos rfl, if_pos rfl]
  generalize tsaAuthCheckRatelimit A table call = r at heff
  cases heff with
  | found b table' hb hids hrest => rw [hnone] at hb; cases hb
  | refused hnone' hfull => omega
  | added hnone' hroom' =>
    have hname : (newBucket A call).id = call.id := take_of_length_le hshort
    have hnew : bucketOf call.id (table ++ [((newBucket A call).draw A call.nowNs).1]) =
        some ((newBucket A call).draw A call.nowNs).1 := by
      rw [bucketOf_concat, hnone, draw_id, if_pos hname]
      rfl
    rw [found_answers A call.id h _ _ hnew, bucketAnswers, newBucket_accepts]
    rfl

/-- There is an entry left when the client first calls. -/
def RoomAtFirst (c : Text) (h : List Call) : Prop :=
  ∀ pre call post, h = pre ++ call :: post → call.id = c → callsOf c pre = [] →
    (tableAfter A pre).length < maxIdTrack

theorem isolated_at_first {pre : List Call} (hshort : call.id.length ≤ 63)
    (hfirst : callsOf call.id pre = []) (hnone : bucketOf call.id (tableAfter A pre) = none)
    (post : List Call) :
    Isolated A call.id (pre ++ call :: post) ↔ (tableAfter A pre).length < maxIdTrack := by
  have hcalls : callsOf call.id (call :: post) = call :: callsOf call.id post := by
    rw [callsOf_cons, if_pos rfl]
  -- the answers the client gets alone
  have halone : answersTo call.id (run (limitPush A) [] (callsOf call.id (call :: post))).2 =
      bucketAnswers A (newBucket A call) (callsOf call.id (call :: post)) := by
    have hroom : ([] : List (Bucket τ)).length < maxIdTrack := by
      show 0 < maxIdTrack
      decide
    rw [hcalls, first_answers A hshort (show bucketOf call.id [] = none from rfl) hroom,
      callsOf_cons, if_pos rfl, callsOf_idem]
  have hbefore : answersTo call.id (run (limitPush A) [] pre).2 = [] := by
    apply eq_nil_of_length_eq_zero
    rw [answersTo_length, hfirst]
    rfl
  rw [Isolated, answersTo_append, hbefore, nil_append, callsOf_append, hfirst,
    nil_append, halone]
  rcases Nat.lt_or_ge (tableAfter A pre).length maxIdTrack with hroom | hfull
  · exact iff_of_true (first_answers A hshort hnone hroom post) hroom
  · -- refused, where a new bucket would have accepted
    refine iff_of_false ?_ (Nat.not_lt.mpr hfull)
    rw [refused_answers A call.id (call :: post) _ hnone hfull, hcalls, bucketAnswers,
      newBucket_accepts]
    intro heq
    cases heq

variable {c : Text}

theorem exists_first_call {h : List Call} (hne : callsOf c h ≠ []) :
    ∃ pre call post, h = pre ++ call :: post ∧ call.id = c ∧ callsOf c pre = [] := by
  induction h with
  | nil => exact absurd rfl hne
  | cons call h ih =>
    by_cases hc : call.id = c
    · exact ⟨[], call, h, rfl, hc, rfl⟩
    · rw [callsOf_cons, if_neg hc] at hne
      obtain ⟨pre, first, post, rfl, hfirst, hpre⟩ := ih hne
      exact ⟨call :: pre, first, post, rfl, hfirst, by rw [callsOf_cons, if_neg hc, hpre]⟩

/-- An entry carries the name of a client that called. -/
theorem tableAfter_names (h : List Call) :
    ∀ id ∈ (tableAfter A h).map (·.id), ∃ call ∈ h, bucketName call.id = id := by
  induction h using reverseRecOn with
  | nil => exact fun id hid => absurd hid not_mem_nil
  | append_singleton h call ih =>
    have hbefore : ∀ id ∈ (tableAfter A h).map (·.id), ∃ x ∈ h ++ [call], bucketName x.id = id := by
      intro id hid
      obtain ⟨x, hx, hname⟩ := ih id hid
      exact ⟨x, mem_append_left _ hx, hname⟩
    have heff := call_effect A (tableAfter A h) call
    rw [tableAfter_snoc]
    generalize tsaAuthCheckRatelimit A (tableAfter A h) call = r at heff
    cases heff with
    | found b table' hb hids hrest => exact fun id hid => hbefore id (hids ▸ hid)
    | refused hnone hfull => exact hbefore
    | added hnone hroom =>
      intro id hid
      rw [map_append, mem_append] at hid
      rcases hid with hid | hid
      · exact hbefore id hid
      · rw [mem_singleton.mp hid]
        exact ⟨call, mem_append_right _ mem_cons_self, (draw_id A (newBucket A call) _).symm⟩

/-- No other client's id is cut to this one. -/
def OwnName (c : Text) (h : List Call) : Prop := ∀ call ∈ h, bucketName call.id = c → call.id = c

theorem bucketOf_before_first {pre post : List Call} (hown : OwnName c (pre ++ post))
    (hfirst : callsOf c pre = []) : bucketOf c (tableAfter A pre) = none := by
  refine bucketOf_eq_none fun hmem => ?_
  obtain ⟨other, hother, hname⟩ := tableAfter_names A pre c hmem
  have hid := hown other (mem_append_left _ hother) hname
  exact filter_eq_nil_iff.mp hfirst other hother (decide_eq_true hid)

/-- **Isolation, exactly where it holds**: a client whose id fits its entry, and to which no other
    client's id is cut, is isolated iff it finds room at its first call. -/
theorem clients_isolated_iff (c : Text) (h : List Call) (hshort : c.length ≤ 63)
    (hown : OwnName c h) : Isolated A c h ↔ RoomAtFirst A c h := by
  constructor
  · rintro hiso pre call post rfl rfl hfirst
    exact (isolated_at_first A hshort hfirst (bucketOf_before_first A hown hfirst) post).mp hiso
  · intro hroom
    by_cases hcalls : callsOf c h = []
    · rw [Isolated, hcalls]
      apply eq_nil_of_length_eq_zero
      rw [answersTo_length, hcalls]
      rfl
    · obtain ⟨pre, call, post, rfl, rfl, hfirst⟩ := exists_first_call hcalls
      exact (isolated_at_first A hshort hfirst (bucketOf_before_first A hown hfirst) post).mpr
        (hroom pre call post rfl rfl hfirst)

theorem tableAfter_length_le (h : List Call) : (tableAfter A h).length ≤ h.length := by
  induction h using reverseRecOn with
  | nil => exact Nat.zero_le _
  | append_singleton h call hlen =>
    have heff := call_effect A (tableAfter A h) call
    rw [tableAfter_snoc, length_append, length_singleton]
    generalize tsaAuthCheckRatelimit A (tableAfter A h) call = r at heff
    cases heff with
    | found b table' hb hids hrest => exact Nat.le_succ_of_le (length_eq_of_ids hids ▸ hlen)
    | refused hnone hfull => exact Nat.le_succ_of_le hlen
    | added hnone hroom =>
      rw [length_append, length_singleton]
      exact Nat.succ_le_succ hlen

/-- Two clients take turns. -/
def takingTurns : List Call := [⟨[2], 0, 0⟩, ⟨[1], 1, 1⟩, ⟨[2], 2, 2⟩, ⟨[1], 3, 3⟩]

theorem takingTurns_isolated : Isolated exactTokens [1] takingTurns := by
  refine (clients_isolated_iff exactTokens [1] takingTurns (by decide)
    (by unfold OwnName; decide)).mpr ?_
  intro pre call post hsplit _ _
  have hlength := congrArg length hsplit
  have hle := tableAfter_length_le exactTokens pre
  rw [length_append] at hlength
  have hfour : takingTurns.length = 4 := rfl
  simp only [maxIdTrack]
  omega

theorem distinct_entries {h : List Call} (hids : (h.map (·.id)).Nodup)
    (hshort : ∀ call ∈ h, call.id.length ≤ 63) (hfit : h.length ≤ maxIdTrack) :
    (tableAfter A h).map (·.id) = h.map (·.id) := by
  induction h using reverseRecOn with
  | nil => rfl
  | append_singleton h call ih =>
    rw [map_append, nodup_append] at hids
    rw [length_append, length_singleton] at hfit
    have hnames := ih hids.1 (fun x hx => hshort x (mem_append_left _ hx)) (by omega)
    have hlen := length_eq_of_ids hnames
    have hnew : bucketOf call.id (tableAfter A h) = none := bucketOf_eq_none fun hmem =>
      hids.2.2 call.id (hnames ▸ hmem) call.id mem_cons_self rfl
    have hname : (newBucket A call).id = call.id :=
      take_of_length_le (hshort call (mem_append_right _ mem_cons_self))
    have heff := call_effect A (tableAfter A h) call
    rw [tableAfter_snoc]
    generalize tsaAuthCheckRatelimit A (tableAfter A h) call = r at heff
    cases heff with
    | found b table' hb hids' hrest => rw [hnew] at hb; cases hb
    | refused hnone hfull => omega
    | added hnone hroom =>
      rw [map_append, map_append, hnames]
      congr 1
      rw [map_singleton, draw_id, hname]
      rfl

theorem refused_behind {h : List Call} (hids : ((h ++ [call]).map (·.id)).Nodup)
    (hshort : ∀ other ∈ h, other.id.length ≤ 63) (hfull : h.length = maxIdTrack) :
    answersTo call.id (run (limitPush A) [] (h ++ [call])).2 = [false] := by
  rw [map_append, nodup_append] at hids
  have hother : ∀ other ∈ h, other.id ≠ call.id := fun other hmem =>
    hids.2.2 other.id (mem_map_of_mem hmem) call.id mem_cons_self
  have hnames := distinct_entries A hids.1 hshort (by omega)
  have hnone : bucketOf call.id (tableAfter A h) = none := bucketOf_eq_none fun hmem =>
    hids.2.2 call.id (hnames ▸ hmem) call.id mem_cons_self rfl
  have hlen := length_eq_of_ids hnames
  have hbefore : answersTo call.id (run (limitPush A) [] h).2 = [] := by
    apply eq_nil_of_length_eq_zero
    rw [answersTo_length, length_eq_zero_iff, callsOf, filter_eq_nil_iff]
    exact fun other hmem hid => hother other hmem (of_decide_eq_true hid)
  rw [answersTo_append, hbefore, refused_answers A call.id [call] _ hnone (by omega), callsOf_cons,
    if_pos rfl]
  rfl

def someClient (k : Nat) : Call := ⟨[UInt8.ofNat (k / 128 + 1), UInt8.ofNat (k % 128 + 1)], 0, 0⟩

theorem someClient_inj {j k : Nat} (hj : j < 1025) (hk : k < 1025)
    (h : (someClient j).id = (someClient k).id) : j = k := by
  injection h with h1 h2
  injection h2 with h2
  have hdiv := congrArg UInt8.toNat h1
  have hmod := congrArg UInt8.toNat h2
  rw [UInt8.toNat_ofNat', UInt8.toNat_ofNat'] at hdiv hmod
  omega

/-- **A full table**: behind 1024 other clients the first call of a client is refused, which alone
    is accepted. -/
theorem late_client_refused :
    answersTo (someClient 1024).id (run (limitPush exactTokens) []
      ((range 1024).map someClient ++ [someClient 1024])).2 = [false] ∧
    answersTo (someClient 1024).id (run (limitPush exactTokens) [] [someClient 1024]).2 =
      [true] := by
  refine ⟨refused_behind exactTokens ?_ ?_ ?_, by decide +kernel⟩
  · have hall : (range 1024).map someClient ++ [someClient 1024] =
        (range (1024 + 1)).map someClient := by
      rw [range_succ (n := 1024), map_append, map_singleton]
    rw [hall, map_map]
    refine List.Nodup.map_on ?_ nodup_range
    intro j hj k hk h
    rw [mem_range] at hj hk
    exact someClient_inj hj hk h
  · intro other hmem
    obtain ⟨k, -, rfl⟩ := mem_map.mp hmem
    show 2 ≤ 63
    decide
  · rw [length_map, length_range]
    rfl

/-! ## The rate -/

theorem exact_draw (b : Bucket Nat) (nowNs : Nat) :
    (b.draw exactTokens nowNs).1.tokens + (if (b.draw exactTokens nowNs).2 then 10 ^ 8 else 0) =
        min (b.tokens + sub64 nowNs b.lastUpdateNs) (10 ^ 10) ∧
      (b.draw exactTokens nowNs).1.lastUpdateNs = nowNs := by
  rw [Bucket.draw]
  split
  · rename_i hone
    exact ⟨Nat.sub_add_cancel (of_decide_eq_true hone), rfl⟩
  · exact ⟨rfl, rfl⟩

variable {since till : Nat}

/-- What a bucket grants from a call on is paid by its tokens then and the time that is left. -/
theorem bucket_rate (calls : List Call) (call : Call) (b : Bucket Nat)
    (hmono : (call :: calls).Pairwise (·.nowNs ≤ ·.nowNs))
    (htill : ∀ x ∈ call :: calls, x.nowNs ≤ till) :
    10 ^ 8 * (bucketAnswers exactTokens b (call :: calls)).count true ≤
      min (b.tokens + sub64 call.nowNs b.lastUpdateNs) (10 ^ 10) + (till - call.nowNs) := by
  induction calls generalizing call b with
  | nil =>
    obtain ⟨htokens, -⟩ := exact_draw b call.nowNs
    rw [bucketAnswers, count_cons, ← htokens]
    simp only [beq_true, bucketAnswers, count_nil]
    split <;> omega
  | cons next calls ih =>
    obtain ⟨htokens, hlast⟩ := exact_draw b call.nowNs
    obtain ⟨hlater, hmono⟩ := pairwise_cons.mp hmono
    have hnext := ih next (b.draw exactTokens call.nowNs).1 hmono
      fun x hx => htill x (mem_cons_of_mem call hx)
    have hgap := sub64_le (hlater next mem_cons_self)
    have hend := htill next (mem_cons_of_mem call mem_cons_self)
    have hnow := hlater next mem_cons_self
    rw [hlast] at hnext
    rw [bucketAnswers, count_cons, ← htokens]
    simp only [beq_true]
    split <;> omega

theorem interval_rate (hshort : c.length ≤ 63) (h : List Call) (table : List (Bucket Nat))
    (hmono : h.Pairwise (·.nowNs ≤ ·.nowNs)) (hin : ∀ x ∈ h, since ≤ x.nowNs ∧ x.nowNs ≤ till) :
    10 ^ 8 * (answersTo c (run (limitPush exactTokens) table h).2).count true ≤
      10 ^ 10 + (till - since) := by
  induction h generalizing table with
  | nil => exact Nat.zero_le _
  | cons call h ih =>
    by_cases hc : call.id = c
    · subst hc
      -- the bucket that answers the first call has at most a hundred tokens then
      have hbucket : ∀ b : Bucket Nat, 10 ^ 8 *
          (bucketAnswers exactTokens b (callsOf call.id (call :: h))).count true ≤
            10 ^ 10 + (till - since) := by
        intro b
        have hcalls := hmono.filter (·.id = call.id)
        have htill : ∀ x ∈ callsOf call.id (call :: h), x.nowNs ≤ till :=
          fun x hx => (hin x (mem_of_mem_filter hx)).2
        rw [← callsOf, callsOf_cons, if_pos rfl] at hcalls
        rw [callsOf_cons, if_pos rfl] at htill ⊢
        have hrate := bucket_rate (callsOf call.id h) call b hcalls htill
        have hsince := (hin call mem_cons_self).1
        omega
      cases hb : bucketOf call.id table with
      | some b =>
        rw [found_answers exactTokens call.id _ table b hb]
        exact hbucket b
      | none =>
        rcases Nat.lt_or_ge table.length maxIdTrack with hroom | hfull
        · rw [first_answers exactTokens hshort hb hroom]
          exact hbucket _
        · rw [refused_answers exactTokens call.id _ table hb hfull, count_replicate]
          exact Nat.zero_le _
    · rw [answersTo_cons, if_neg hc, nil_append]
      exact ih _ hmono.of_cons fun x hx => hin x (mem_cons_of_mem call hx)

/-- **The rate**: within an interval a client is granted a hundred requests and ten for each second,
    whatever came before and whoever else calls. -/
theorem accepted_rate (c : Text) (hshort : c.length ≤ 63) (pre h : List Call) (since till : Nat)
    (hmono : h.Pairwise (·.nowNs ≤ ·.nowNs)) (hin : ∀ x ∈ h, since ≤ x.nowNs ∧ x.nowNs ≤ till) :
    ((answersTo c (run (limitPush exactTokens) (tableAfter exactTokens pre) h).2).count true : ℚ) ≤
      100 + 10 * ((till - since : ℕ) / 10 ^ 9) := by
  have hrate := interval_rate hshort h (tableAfter exactTokens pre) hmono hin
  qify at hrate
  linarith

theorem twoRequests_rate :
    ((answersTo [1] (run (limitPush exactTokens) (tableAfter exactTokens [])
      [⟨[1], 0, 0⟩, ⟨[1], 5, 5⟩]).2).count true : ℚ) ≤ 100 + 10 * ((5 - 0 : ℕ) / 10 ^ 9) :=
  accepted_rate [1] (by decide) [] _ 0 5 (by decide) (by decide)

end TsAnalyzer.Auth

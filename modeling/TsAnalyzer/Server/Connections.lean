/-
  The table of connections of `src/tsa_server_pro.c`.

  A connection gets its index by `atomic_fetch_add(&g_conn_count, 1)` and is stored there.  Only
  `load_config` looks whether `g_conns` is full; the SRT listener, SRT accepts and POST requests do
  not, and nothing gives an index back: a DELETE request is answered, and that is all.

  So the indices stored are `0, 1, 2, …` (`Numbered`), and they stay in the table exactly as long as
  no more than 4096 connections have ever been registered (`conns_bounded_iff`).
-/
import TsAnalyzer.Lib.Run
import TsAnalyzer.Lib.Text

namespace TsAnalyzer.Server

open Lib List

/-! ## Program -/

def maxConns : Nat := 4096

inductive ConnType where
  | udp | srtListener | srtClient

structure ConnTable where
  conns : Nat → Option ConnType
  connCount : Nat

/-- What is seen: the index of a store into `g_conns`, or the answer to a request. -/
inductive Output where
  | stored (idx : Nat)
  | reply (status : Nat) (body : String)

/-- `idx = atomic_fetch_add(&g_conn_count, 1); g_conns[idx] = nc`. -/
def ConnTable.register (t : ConnTable) (type : ConnType) : ConnTable × List Output :=
  (⟨Function.update t.conns t.connCount (some type), t.connCount + 1⟩, [.stored t.connCount])

/-- One stream of `load_config`: its URL, and whether its port can be bound. -/
def loadStream (t : ConnTable) (stream : Text × Bool) : ConnTable × List Output :=
  -- the `break` of the source: once the table is full it stays so
  if maxConns ≤ t.connCount then (t, [])
  else if (ascii "udp://").isPrefixOf stream.1 ∧ stream.2 then t.register .udp
  else (t, [])

def setupSrtListener (t : ConnTable) (bound : Bool) : ConnTable × List Output :=
  if bound then t.register .srtListener else (t, [])

/-- The server before its first request. -/
def startup (streams : List (Text × Bool)) (bound : Bool) : ConnTable × List Output :=
  let r := run loadStream ⟨fun _ => none, 0⟩ streams
  let l := setupSrtListener r.1 bound
  (l.1, r.2 ++ l.2)

inductive Request where
  /-- What `srt_accept` returns, `none` for `SRT_INVALID_SOCK`. -/
  | accept (client : Option Int)
  /-- `id` and `url` of the body, and whether a UDP port can be bound. -/
  | post (id url : Option Text) (bound : Bool)
  | delete

/-- The POST branch of `http_fn`. -/
def httpPost (t : ConnTable) (bound : Bool) : Option Text → Option Text → ConnTable × List Output
  | some _, some url =>
    if (ascii "udp://").isPrefixOf url then
      if bound then
        let r := t.register .udp
        (r.1, r.2 ++ [.reply 200 "\x7b\"status\":\"ok\"\x7d"])
      else (t, [.reply 500 "Failed to bind UDP port"])
    else if (ascii "srt://").isPrefixOf url then
      let r := t.register .srtClient
      (r.1, r.2 ++ [.reply 200 "\x7b\"status\":\"ok\"\x7d"])
    else (t, [.reply 400 "Unsupported URL format"])
  | _, _ => (t, [.reply 400 "Missing stream_id or url in JSON"])

def requestStep (t : ConnTable) : Request → ConnTable × List Output
  | .accept none => (t, [])
  | .accept (some _) => t.register .srtClient
  | .post id url bound => httpPost t bound id url
  | .delete => (t, [.reply 200 "\x7b\"status\":\"ok\"\x7d"])

/-- A connection is made of it. -/
def Request.registers : Request → Bool
  | .accept client => client.isSome
  | .post (some _) (some url) bound =>
    (ascii "udp://").isPrefixOf url && bound ||
      !(ascii "udp://").isPrefixOf url && (ascii "srt://").isPrefixOf url
  | _ => false

def storedOf (out : List Output) : List Nat :=
  out.filterMap fun
    | .stored idx => some idx
    | .reply .. => none

/-! ## The indices -/

/-- One index after the other has been stored to. -/
def Numbered (t : ConnTable) (out : List Output) : Prop := storedOf out = range t.connCount

variable {t : ConnTable} {out : List Output}

theorem Numbered.silent (h : Numbered t out) {new : List Output} (hnew : storedOf new = []) :
    Numbered t (out ++ new) := by
  rw [Numbered, storedOf, filterMap_append, ← storedOf, ← storedOf, hnew, append_nil]
  exact h

theorem Numbered.register (h : Numbered t out) (type : ConnType) :
    Numbered (t.register type).1 (out ++ (t.register type).2) := by
  rw [Numbered, storedOf, filterMap_append, ← storedOf, h]
  exact range_succ.symm

theorem Numbered.loadStream (h : Numbered t out) (stream : Text × Bool) :
    Numbered (loadStream t stream).1 (out ++ (Server.loadStream t stream).2) := by
  rw [Server.loadStream]
  split
  · exact h.silent rfl
  · split
    · exact h.register _
    · exact h.silent rfl

theorem startup_numbered (streams : List (Text × Bool)) (bound : Bool) :
    Numbered (startup streams bound).1 (startup streams bound).2 := by
  have hloaded := run_history (R := fun _ _ => True) (J := Numbered)
    (fun t out stream h _ => h.loadStream stream) streams ⟨fun _ => none, 0⟩ [] rfl
    (along_true _ _ _)
  rw [startup, setupSrtListener]
  split
  · exact hloaded.register _
  · exact hloaded.silent rfl

/-- **Step**: a request stores to the next index, or to none. -/
theorem Numbered.request (h : Numbered t out) (r : Request) :
    Numbered (requestStep t r).1 (out ++ (requestStep t r).2) ∧
      (requestStep t r).1.connCount = t.connCount + if r.registers then 1 else 0 := by
  have hok : ∀ type, Numbered (t.register type).1
      (out ++ ((t.register type).2 ++ [.reply 200 "\x7b\"status\":\"ok\"\x7d"])) := by
    intro type
    rw [← append_assoc]; exact (h.register type).silent rfl
  cases r with
  | accept client =>
    cases client with
    | none => exact ⟨h.silent rfl, rfl⟩
    | some _ => exact ⟨h.register _, rfl⟩
  | delete => exact ⟨h.silent rfl, rfl⟩
  | post id url bound =>
    cases id with
    | none => exact ⟨h.silent rfl, rfl⟩
    | some id =>
      cases url with
      | none => exact ⟨h.silent rfl, rfl⟩
      | some url =>
        simp only [requestStep, httpPost, Request.registers]
        by_cases hudp : (ascii "udp://").isPrefixOf url
        · cases bound
          · simp only [hudp, if_true]; exact ⟨h.silent rfl, rfl⟩
          · simp only [hudp, if_true]; exact ⟨hok _, rfl⟩
        · by_cases hsrt : (ascii "srt://").isPrefixOf url
          · simp only [hudp, hsrt]; exact ⟨hok _, rfl⟩
          · simp only [hudp, hsrt]; exact ⟨h.silent rfl, rfl⟩

/-- **Run**. -/
theorem Numbered.requests (rs : List Request) (h : Numbered t out) :
    Numbered (run requestStep t rs).1 (out ++ (run requestStep t rs).2) ∧
      (run requestStep t rs).1.connCount = t.connCount + rs.countP Request.registers := by
  induction rs generalizing t out with
  | nil => exact ⟨h.silent rfl, rfl⟩
  | cons r rs ih =>
    obtain ⟨hnext, hcount⟩ := h.request r
    obtain ⟨hnum, hrest⟩ := ih hnext
    refine ⟨by rwa [append_assoc] at hnum, ?_⟩
    rw [countP_cons, Nat.add_comm (countP ..), ← Nat.add_assoc, ← hcount]
    exact hrest

/-- **No store leaves the table, and no count its size**, exactly if the connections that the
    configuration, the listener and all requests so far have registered are at most 4096. -/
theorem conns_bounded_iff (streams : List (Text × Bool)) (bound : Bool) (rs : List Request) :
    let s := startup streams bound
    let r := run requestStep s.1 rs
    (∀ idx ∈ storedOf (s.2 ++ r.2), idx < maxConns) ∧ r.1.connCount ≤ maxConns ↔
      s.1.connCount + rs.countP Request.registers ≤ maxConns := by
  intro s r
  obtain ⟨hnum, hcount⟩ := (startup_numbered streams bound).requests rs
  rw [show storedOf (s.2 ++ r.2) = _ from hnum, ← show r.1.connCount = _ from hcount]
  exact and_iff_right_of_imp fun hle idx hidx => Nat.lt_of_lt_of_le (mem_range.mp hidx) hle

theorem clients_stored (n : Nat) :
    let s := startup [] true
    let r := run requestStep s.1 (replicate n (.accept (some 0)))
    storedOf (s.2 ++ r.2) = range (n + 1) ∧ r.1.connCount = n + 1 := by
  intro s r
  obtain ⟨hnum, hcount⟩ := (startup_numbered [] true).requests
    (replicate n (.accept (some 0)))
  have hn : r.1.connCount = n + 1 := by
    rw [countP_replicate] at hcount
    exact hcount.trans (Nat.add_comm 1 n)
  exact ⟨by rw [← hn]; exact hnum, hn⟩

/-- 4096 clients: the last one is stored behind the table. -/
theorem last_client_outside :
    let s := startup [] true
    let r := run requestStep s.1 (replicate maxConns (.accept (some 0)))
    maxConns ∈ storedOf (s.2 ++ r.2) ∧ r.1.connCount = maxConns + 1 := by
  refine And.imp_left (fun hstored => ?_) (clients_stored maxConns)
  rw [hstored]; exact self_mem_range_succ

end TsAnalyzer.Server

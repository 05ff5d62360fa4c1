import Diagox.Flow.Connections
import Diagox.Lib.Slice

/-!
# The buffers of the connections

`flowConnections` of `flow_rpc.go` on the slices that it keeps. That an endpoint has at most two connections is the
capacity of its slice: a new connection is appended in the array itself, and a removal moves the later ones down in
it, while the loop of `Delete` goes on over the slice as it was. The lists of `FlowRPC` are what the slices show, and
these are the connections that were accepted and not deleted since.
-/

namespace Flow

open Configuration Run

/-- A place of an array without a connection is a nil pointer. -/
structure FlowConnections where
  heap : Heap (Option FlowConnection) := []
  conns : String → Option Slice := fun _ => none

namespace FlowConnections

/-- What the map shows for an endpoint. -/
def shown (fc : FlowConnections) (endpointID : String) : List (Option FlowConnection) :=
  match fc.conns endpointID with
  | none => []
  | some s => fc.heap.read s

/-- The buffer of an endpoint, a new one at first. -/
def connectionBuf (fc : FlowConnections) (endpointId : String) : Heap (Option FlowConnection) × Slice :=
  match fc.conns endpointId with
  | some s => (fc.heap, s)
  | none => fc.heap.make none connectionCap

/-- The handler up to the new connection. A buffer that was made for a refused request is garbage. -/
def flowConn (conf : Config) (fc : FlowConnections) (agentConn : FlowConnection) (r : Upgrade) :
    Except (Nat × String) FlowConnections :=
  if r.endpoint = "" then .error (400, "Endpoint parameter required")
  else if r.endpoint ∉ conf.endpoints then .error (404, "No endpoint found")
  else
    let (heap, buf) := fc.connectionBuf r.endpoint
    if buf.len = heap.cap buf then .error (400, "Maximum connection of agent reached")
    else if r.succeeds = false then .error (500, "Failed to upgrade websocket")
    else
      let (heap, buf) := heap.push buf (some agentConn)
      .ok { heap := heap, conns := Function.update fc.conns r.endpoint (some buf) }

/-- One turn of the loop of `Delete`, which ranges over the slice as it was at first: `conns` is the variable, of which
a slice expression beyond its length panics. -/
def deleteIter (endpointID : String) (agentConn : FlowConnection) (ranged : Slice) (i : Nat)
    (s : FlowConnections × Slice) : Option (FlowConnections × Slice) :=
  if (s.1.heap.read ranged)[i]? = some (some agentConn) then
    if i < s.2.len then
      let (heap, conns) := s.1.heap.removeAt s.2 i
      some ({ heap := heap, conns := Function.update s.1.conns endpointID (some conns) }, conns)
    else none
  else some s

/-- The turns from index `i` on. -/
def deleteLoop (endpointID : String) (agentConn : FlowConnection) (ranged : Slice) :
    (turns i : Nat) → FlowConnections × Slice → Option (FlowConnections × Slice)
  | 0, _, s => some s
  | turns + 1, i, s =>
      (deleteIter endpointID agentConn ranged i s).bind (deleteLoop endpointID agentConn ranged turns (i + 1))

def delete (fc : FlowConnections) (endpointID : String) (agentConn : FlowConnection) : Option FlowConnections :=
  match fc.conns endpointID with
  | none => some fc
  | some conns => (deleteLoop endpointID agentConn conns conns.len 0 (fc, conns)).map Prod.fst

def load (intN : (n : Nat) → Fin (n + 1)) (fc : FlowConnections) (endpointID : String) : Option FlowConnection :=
  match fc.shown endpointID with
  | [] => none
  | [c] => c
  | c :: cs => ((c :: cs)[(intN cs.length).val]?).join

/-- Every slice starts its array, which has room for two and is the array of no other slice. -/
structure WellFormed (fc : FlowConnections) : Prop where
  valid : ∀ k s, fc.conns k = some s → fc.heap.Valid s
  start : ∀ k s, fc.conns k = some s → s.off = 0
  room : ∀ k s, fc.conns k = some s → (fc.heap.array s.array).length = connectionCap
  own : ∀ k k' s s', fc.conns k = some s → fc.conns k' = some s' → s.array = s'.array → k = k'

/-- The slices show the lists. -/
structure Shows (fc : FlowConnections) (rpc : FlowRPC) : Prop where
  wellFormed : fc.WellFormed
  lists : ∀ k, fc.shown k = (rpc.conns k).map some

end FlowConnections

section Shows

open FlowConnections

variable {conf : Config} {fc : FlowConnections} {rpc : FlowRPC} {k : String} {s : Slice}

theorem shown_of_some (h : fc.conns k = some s) : fc.shown k = fc.heap.read s := by
  rw [shown, h]

theorem shown_congr {fc' : FlowConnections} (hconns : fc'.conns k = fc.conns k)
    (hread : ∀ s, fc.conns k = some s → fc'.heap.read s = fc.heap.read s) : fc'.shown k = fc.shown k := by
  rw [shown, shown, hconns]
  cases hs : fc.conns k with
  | none => rfl
  | some s => exact hread s hs

theorem shows_update (h : Shows fc rpc) (heap : Heap (Option FlowConnection)) (buf : Slice) {cs : List FlowConnection}
    (hvalid : heap.Valid buf) (hoff : buf.off = 0) (hroom : (heap.array buf.array).length = connectionCap)
    (hread : heap.read buf = cs.map some) (hlength : fc.heap.length ≤ heap.length)
    (hothers : ∀ k' s', k' ≠ k → fc.conns k' = some s' →
      s'.array ≠ buf.array ∧ heap.array s'.array = fc.heap.array s'.array) (readers : List (String × FlowConnection))
    (allocated : Nat) :
    Shows { heap := heap, conns := Function.update fc.conns k (some buf) }
      { conns := Function.update rpc.conns k cs, readers := readers, allocated := allocated } := by
  have hcases : ∀ k' s', Function.update fc.conns k (some buf) k' = some s' →
      k' = k ∧ s' = buf ∨ k' ≠ k ∧ fc.conns k' = some s' := by
    intro k' s' hs'
    by_cases hk : k' = k
    · rw [hk, Function.update_self] at hs'
      exact .inl ⟨hk, (Option.some.inj hs').symm⟩
    · rw [Function.update_of_ne hk] at hs'
      exact .inr ⟨hk, hs'⟩
  refine ⟨⟨fun k' s' hs' => ?_, fun k' s' hs' => ?_, fun k' s' hs' => ?_, fun k₁ k₂ s₁ s₂ h₁ h₂ harray => ?_⟩,
    fun k' => ?_⟩
  · obtain ⟨-, rfl⟩ | ⟨hk, hs'⟩ := hcases k' s' hs'
    · exact hvalid
    · have hold := h.wellFormed.valid k' s' hs'
      exact ⟨hold.1.trans_le hlength, by rw [(hothers k' s' hk hs').2]; exact hold.2⟩
  · obtain ⟨-, rfl⟩ | ⟨hk, hs'⟩ := hcases k' s' hs'
    · exact hoff
    · exact h.wellFormed.start k' s' hs'
  · obtain ⟨-, rfl⟩ | ⟨hk, hs'⟩ := hcases k' s' hs'
    · exact hroom
    · show (heap.array s'.array).length = connectionCap
      rw [(hothers k' s' hk hs').2]
      exact h.wellFormed.room k' s' hs'
  · obtain ⟨rfl, rfl⟩ | ⟨hk₁, hold₁⟩ := hcases k₁ s₁ h₁
    · obtain ⟨rfl, -⟩ | ⟨hk₂, hold₂⟩ := hcases k₂ s₂ h₂
      · rfl
      · exact absurd harray.symm (hothers k₂ s₂ hk₂ hold₂).1
    · obtain ⟨rfl, rfl⟩ | ⟨-, hold₂⟩ := hcases k₂ s₂ h₂
      · exact absurd harray (hothers k₁ s₁ hk₁ hold₁).1
      · exact h.wellFormed.own k₁ k₂ s₁ s₂ hold₁ hold₂ harray
  · by_cases hk : k' = k
    · subst hk
      rw [shown_of_some (Function.update_self ..)]
      show _ = (Function.update rpc.conns k' cs k').map some
      rw [Function.update_self]
      exact hread
    · show shown _ k' = (Function.update rpc.conns k cs k').map some
      rw [Function.update_of_ne hk, ← h.lists k']
      refine shown_congr (Function.update_of_ne hk _ _) fun s' hs' => ?_
      show heap.read s' = fc.heap.read s'
      rw [Heap.read, (hothers k' s' hk hs').2, Heap.read]

/-- The buffer of an endpoint shows its list, with room for two. -/
theorem connectionBuf_shows (h : Shows fc rpc) (k : String) {heap : Heap (Option FlowConnection)} {buf : Slice}
    (hbuf : fc.connectionBuf k = (heap, buf)) :
    heap.Valid buf ∧ buf.off = 0 ∧ (heap.array buf.array).length = connectionCap ∧
      heap.read buf = (rpc.conns k).map some ∧ fc.heap.length ≤ heap.length ∧
      ∀ k' s', k' ≠ k → fc.conns k' = some s' →
        s'.array ≠ buf.array ∧ heap.array s'.array = fc.heap.array s'.array := by
  rw [← h.lists k]
  unfold connectionBuf at hbuf
  cases hs : fc.conns k with
  | none =>
      simp only [hs, Heap.make] at hbuf
      obtain ⟨rfl, rfl⟩ := Prod.mk.inj hbuf
      have harray : Heap.array (fc.heap ++ [List.replicate connectionCap none]) fc.heap.length =
          List.replicate connectionCap none := Heap.array_append_self _ _
      refine ⟨⟨by simp, by simp⟩, rfl, by rw [harray, List.length_replicate], by rw [shown, hs]; simp [Heap.read],
        by simp, fun k' s' _ hs' => ?_⟩
      have hlt := (h.wellFormed.valid k' s' hs').1
      exact ⟨hlt.ne, Heap.array_append hlt _⟩
  | some s =>
      simp only [hs] at hbuf
      obtain ⟨rfl, rfl⟩ := Prod.mk.inj hbuf
      refine ⟨h.wellFormed.valid k s hs, h.wellFormed.start k s hs, h.wellFormed.room k s hs,
        (shown_of_some hs).symm, le_rfl, fun k' s' hk hs' => ⟨fun harray => hk ?_, rfl⟩⟩
      exact h.wellFormed.own k' k s' s hs' hs harray

theorem length_of_buf (h : Shows fc rpc) {heap : Heap (Option FlowConnection)} {buf : Slice}
    (hbuf : fc.connectionBuf k = (heap, buf)) :
    buf.len = (rpc.conns k).length ∧ heap.cap buf = connectionCap := by
  obtain ⟨hvalid, hoff, hroom, hread, -⟩ := connectionBuf_shows h k hbuf
  refine ⟨?_, by rw [Heap.cap, hroom, hoff, Nat.sub_zero]⟩
  rw [← Heap.length_read hvalid, hread, List.length_map]

theorem flowConn_of_error (h : Shows fc rpc) {r : Upgrade} {response : Nat × String}
    (hserve : serve conf rpc r = .error response) : flowConn conf fc rpc.allocated r = .error response := by
  obtain ⟨⟨heap, buf⟩, hbuf⟩ : ∃ b, fc.connectionBuf r.endpoint = b := ⟨_, rfl⟩
  obtain ⟨hlen, hcap⟩ := length_of_buf h hbuf
  unfold serve at hserve
  unfold flowConn
  rw [hbuf]
  simp only [hlen, hcap]
  split_ifs at hserve ⊢ <;> exact congrArg _ (Except.error.inj hserve)

theorem flowConn_of_ok (h : Shows fc rpc) {r : Upgrade} {rpc' : FlowRPC} (hserve : serve conf rpc r = .ok rpc') :
    ∃ fc', flowConn conf fc rpc.allocated r = .ok fc' ∧ Shows fc' rpc' := by
  obtain ⟨⟨heap, buf⟩, hbuf⟩ : ∃ b, fc.connectionBuf r.endpoint = b := ⟨_, rfl⟩
  obtain ⟨hvalid, hoff, hroom, hread, hlength, hothers⟩ := connectionBuf_shows h r.endpoint hbuf
  obtain ⟨hlen, hcap⟩ := length_of_buf h hbuf
  unfold serve at hserve
  split_ifs at hserve with hname hexists hfull hfails
  have hlt : buf.len < heap.cap buf := by
    have hle : buf.len ≤ connectionCap := by
      have := hvalid.2
      omega
    rw [hcap]
    exact lt_of_le_of_ne hle (by rwa [hlen])
  have hok : flowConn conf fc rpc.allocated r =
      .ok ⟨(heap.push buf (some rpc.allocated)).1,
        Function.update fc.conns r.endpoint (some (heap.push buf (some rpc.allocated)).2)⟩ := by
    unfold flowConn
    rw [if_neg hname, if_neg (not_not.mpr hexists), hbuf]
    simp only [hlen, hcap, if_neg hfull, if_neg hfails]
  rw [← Except.ok.inj hserve]
  refine ⟨_, hok, ?_⟩
  have hshown := Heap.read_push hvalid hlt (some rpc.allocated)
  rw [Heap.push_of_room hlt] at hshown ⊢
  have harray : Heap.array (heap.set buf.array ((heap.array buf.array).set (buf.off + buf.len) (some rpc.allocated)))
      buf.array = (heap.array buf.array).set (buf.off + buf.len) (some rpc.allocated) :=
    Heap.array_set_self hvalid.1 _
  have hroom' := hroom
  rw [← List.length_set, ← harray] at hroom'
  refine shows_update h _ ⟨buf.array, buf.off, buf.len + 1⟩ ⟨by rw [List.length_set]; exact hvalid.1, ?_⟩ hoff hroom'
    ?_ (by rwa [List.length_set])
    (fun k' s' hk hs' => ?_) _ _
  · rw [hroom', hoff]
    have hle : buf.len + 1 ≤ connectionCap := hcap ▸ hlt
    exact (Nat.zero_add _).trans_le hle
  · rw [hshown, hread, List.map_append, List.map_singleton]
  · obtain ⟨hne, hsame⟩ := hothers k' s' hk hs'
    exact ⟨hne, by rw [Heap.array_set_ne (Ne.symm hne), hsame]⟩

theorem flowConn_eq_error_iff (h : Shows fc rpc) (r : Upgrade) (response : Nat × String) :
    flowConn conf fc rpc.allocated r = .error response ↔ serve conf rpc r = .error response := by
  refine ⟨fun hrefused => ?_, flowConn_of_error h⟩
  cases hserve : serve conf rpc r with
  | error response' =>
      rw [flowConn_of_error h hserve] at hrefused
      exact congrArg _ (Except.error.inj hrefused)
  | ok rpc' =>
      obtain ⟨fc', hok, -⟩ := flowConn_of_ok h hserve
      rw [hok] at hrefused
      cases hrefused

/-! ### Removal -/

theorem deleteIter_skip {c : FlowConnection} {i : Nat} {v : FlowConnections × Slice}
    (h : (v.1.heap.read s)[i]? ≠ some (some c)) : deleteIter k c s i v = some v := if_neg h

theorem deleteLoop_skip {c : FlowConnection} {v : FlowConnections × Slice} {turns i : Nat}
    (h : ∀ j, i ≤ j → j < i + turns → (v.1.heap.read s)[j]? ≠ some (some c)) :
    deleteLoop k c s turns i v = some v := by
  induction turns generalizing i with
  | zero => rfl
  | succ turns ih =>
      rw [deleteLoop, deleteIter_skip (h i le_rfl (by omega)), Option.bind_some]
      exact ih fun j hij hj => h j (by omega) (by omega)

theorem deleteLoop_add {c : FlowConnection} {v : FlowConnections × Slice} (m n i : Nat) :
    deleteLoop k c s (m + n) i v = (deleteLoop k c s m i v).bind (deleteLoop k c s n (i + m)) := by
  induction m generalizing i v with
  | zero => simp [deleteLoop]
  | succ m ih =>
      rw [Nat.succ_add, deleteLoop, deleteLoop, Option.bind_assoc]
      refine congrArg _ (funext fun v' => ?_)
      rw [ih, show i + 1 + m = i + (m + 1) by omega]

theorem deleteLoop_eq {c : FlowConnection} {cs : List FlowConnection} (hvalid : fc.heap.Valid s)
    (hread : fc.heap.read s = cs.map some) (hnodup : cs.Nodup) {i : Nat} (hi : cs[i]? = some c) :
    deleteLoop k c s s.len 0 (fc, s) =
      some ({ heap := (fc.heap.removeAt s i).1,
              conns := Function.update fc.conns k (some (fc.heap.removeAt s i).2) }, (fc.heap.removeAt s i).2) := by
  obtain ⟨hlt, hget⟩ := List.getElem?_eq_some_iff.mp hi
  have hlen : s.len = cs.length := by rw [← Heap.length_read hvalid, hread, List.length_map]
  have hat : ∀ j, (fc.heap.read s)[j]? = some (some c) ↔ j = i := by
    intro j
    rw [hread, List.getElem?_map, Option.map_eq_some_iff]
    constructor
    · rintro ⟨d, hd, hdc⟩
      rw [Option.some.inj hdc] at hd
      exact ((List.getElem?_inj hlt hnodup).mp (hi.trans hd.symm)).symm
    · rintro rfl
      exact ⟨c, hi, rfl⟩
  have hsplit : s.len = i + (1 + (s.len - i - 1)) := by omega
  have hbefore : deleteLoop k c s i 0 (fc, s) = some (fc, s) := by
    refine deleteLoop_skip fun j _ hj hjc => ?_
    rw [(hat j).mp hjc] at hj
    omega
  have hhit : deleteIter k c s i (fc, s) =
      some ({ heap := (fc.heap.removeAt s i).1,
              conns := Function.update fc.conns k (some (fc.heap.removeAt s i).2) }, (fc.heap.removeAt s i).2) := by
    unfold deleteIter
    rw [if_pos ((hat i).mpr rfl), if_pos (show i < s.len by omega)]
  rw [hsplit, deleteLoop_add, hbefore, Option.bind_some, deleteLoop_add, Nat.zero_add, deleteLoop, hhit,
    Option.bind_some, deleteLoop, Option.bind_some]
  refine deleteLoop_skip fun j hij hj => ?_
  obtain ⟨m, him, hm⟩ := Heap.read_removeAt_old hvalid (show i < j by omega) (show j < s.len by omega)
  rw [hm]
  exact fun hmc => absurd ((hat m).mp hmc) (by omega)

/-- A connection is deleted as it is on the lists, and `Delete` does not panic. -/
theorem delete_shows (h : Shows fc rpc) (hnodup : (rpc.conns k).Nodup) (c : FlowConnection) :
    ∃ fc', delete fc k c = some fc' ∧ Shows fc' (deleteConnection rpc k c) := by
  have hsame : c ∉ rpc.conns k → deleteConnection rpc k c = rpc := by
    intro hc
    rw [deleteConnection, List.erase_of_not_mem hc, Function.update_eq_self]
  unfold delete
  cases hs : fc.conns k with
  | none =>
      have hnil : rpc.conns k = [] := by
        rw [← List.map_eq_nil_iff (f := some), ← h.lists k, shown, hs]
      exact ⟨fc, rfl, by rwa [hsame (by simp [hnil])]⟩
  | some s =>
      have hvalid := h.wellFormed.valid k s hs
      have hread : fc.heap.read s = (rpc.conns k).map some := by rw [← h.lists k, shown_of_some hs]
      by_cases hc : c ∈ rpc.conns k
      · obtain ⟨i, hi⟩ := List.mem_iff_getElem?.mp hc
        obtain ⟨hlt, hget⟩ := List.getElem?_eq_some_iff.mp hi
        have hlen : i < s.len := by
          rwa [← Heap.length_read hvalid, hread, List.length_map]
        have harray : Heap.array (fc.heap.removeAt s i).1 s.array =
            ((fc.heap.array s.array).take (s.off + i) ++
              ((fc.heap.array s.array).take (s.off + s.len)).drop (s.off + i + 1) ++
              (fc.heap.array s.array).drop (s.off + s.len - 1)) := Heap.array_set_self hvalid.1 _
        have hroom : (Heap.array (fc.heap.removeAt s i).1 s.array).length = connectionCap := by
          have := hvalid.2
          rw [harray, ← h.wellFormed.room k s hs]
          simp only [List.length_append, List.length_take, List.length_drop]
          omega
        refine ⟨_, congrArg (Option.map Prod.fst) (deleteLoop_eq hvalid hread hnodup hi), ?_⟩
        refine shows_update h _ (fc.heap.removeAt s i).2 ?_ (h.wellFormed.start k s hs) hroom ?_
          (by simp [Heap.removeAt])
          (fun k' s' hk hs' => ⟨fun hsame' => hk (h.wellFormed.own k' k s' s hs' hs hsame'), ?_⟩) _ _
        · have hold := Heap.valid_removeAt hvalid hlen
          exact ⟨hold.1, (Nat.add_le_add_left (Nat.sub_le _ _) _).trans hold.2⟩
        · rw [Heap.read_removeAt hvalid hlen, hread, List.eraseIdx_map, ← hnodup.erase_getElem i hlt, hget]
        · refine Heap.array_set_ne (fun hsame' => hk ?_) _
          exact h.wellFormed.own k' k s' s hs' hs hsame'.symm
      · refine ⟨fc, ?_, by rwa [hsame hc]⟩
        have hskip : deleteLoop k c s s.len 0 (fc, s) = some (fc, s) := by
          refine deleteLoop_skip fun j _ _ hj => hc ?_
          have hmem := List.mem_of_getElem? hj
          rw [hread] at hmem
          obtain ⟨d, hd, hdc⟩ := List.mem_map.mp hmem
          exact Option.some.inj hdc ▸ hd
        show (deleteLoop k c s s.len 0 (fc, s)).map Prod.fst = some fc
        rw [hskip]
        rfl

theorem load_shows (h : Shows fc rpc) (intN : (n : Nat) → Fin (n + 1)) (k : String) :
    FlowConnections.load intN fc k = Flow.load intN rpc k := by
  rw [FlowConnections.load, Flow.load, h.lists k]
  cases rpc.conns k with
  | nil => rfl
  | cons c cs =>
      cases cs with
      | nil => rfl
      | cons d cs =>
          have hlt : (intN (d :: cs).length).val < (c :: d :: cs).length := (intN (d :: cs).length).isLt
          show ((List.map some (c :: d :: cs))[(intN (List.map some (d :: cs)).length).val]?).join =
            some ((c :: d :: cs).get (intN (d :: cs).length))
          rw [List.length_map, List.getElem?_map, List.getElem?_eq_getElem hlt]
          rfl

theorem length_le_of_shows (h : Shows fc rpc) (k : String) : (rpc.conns k).length ≤ connectionCap := by
  rw [← List.length_map (f := some), ← h.lists k, shown]
  cases hs : fc.conns k with
  | none => exact Nat.zero_le _
  | some s =>
      have hvalid := h.wellFormed.valid k s hs
      show (fc.heap.read s).length ≤ connectionCap
      rw [Heap.length_read hvalid, ← h.wellFormed.room k s hs]
      exact (Nat.le_add_left _ _).trans hvalid.2

theorem shows_congr (h : Shows fc rpc) {rpc' : FlowRPC} (hconns : rpc'.conns = rpc.conns) : Shows fc rpc' :=
  ⟨h.wellFormed, fun k => by rw [h.lists k, hconns]⟩

end Shows

/-! ### Histories of a pool -/

inductive PoolEntry where
  | accepted (endpointID : String) (c : FlowConnection)
  | deleted (endpointID : String) (c : FlowConnection)
  deriving DecidableEq, Repr

/-- The connections of an endpoint that were accepted and not deleted since, in the order of their acceptance. -/
def held (endpointID : String) : List PoolEntry → List FlowConnection
  | [] => []
  | .accepted k c :: log =>
      if k = endpointID ∧ .deleted endpointID c ∉ log then c :: held endpointID log else held endpointID log
  | .deleted _ _ :: log => held endpointID log

structure PoolState where
  connections : FlowConnections := {}
  allocated : Nat := 0
  log : List PoolEntry := []
  panicked : Bool := false

inductive PoolEvent where
  | connect (r : Upgrade)
  | delete (endpointID : String) (agentConn : FlowConnection)

def poolStep (conf : Config) (s : PoolState) : PoolEvent → PoolState
  | .connect r =>
      match s.connections.flowConn conf s.allocated r with
      | .error _ => s
      | .ok connections =>
          { s with
            connections := connections
            allocated := s.allocated + 1
            log := s.log ++ [.accepted r.endpoint s.allocated] }
  | .delete endpointID agentConn =>
      match s.connections.delete endpointID agentConn with
      | none => { s with panicked := true }
      | some connections => { s with connections := connections, log := s.log ++ [.deleted endpointID agentConn] }

/-- The lists of the connections that are held. -/
def PoolState.lists (s : PoolState) : FlowRPC := { conns := fun k => held k s.log, allocated := s.allocated }

/-- What a pool shows, refuses and hands out. -/
structure PoolLaw (conf : Config) (s : PoolState) : Prop where
  shown : ∀ k, s.connections.shown k = (held k s.log).map some
  once : ∀ k, (held k s.log).Nodup
  atMost : ∀ k, (held k s.log).length ≤ 2
  refused : ∀ r, s.connections.flowConn conf s.allocated r = .error (400, "Maximum connection of agent reached") ↔
    (held r.endpoint s.log).length = 2
  loaded : ∀ intN k, (∀ c ∈ s.connections.load intN k, c ∈ held k s.log) ∧
    (s.connections.load intN k = none ↔ held k s.log = [])
  calm : s.panicked = false

/-- The slices show the lists, and only endpoints of the configuration have connections. -/
structure PoolInv (conf : Config) (s : PoolState) : Prop where
  shows : FlowConnections.Shows s.connections s.lists
  once : ∀ k, (held k s.log).Nodup
  fresh : ∀ k, ∀ c ∈ held k s.log, c < s.allocated
  known : ∀ k, held k s.log ≠ [] → k ≠ "" ∧ k ∈ conf.endpoints
  calm : s.panicked = false

section History

variable {conf : Config} {s : PoolState}

theorem held_accepted (k k' : String) (c : FlowConnection) (log : List PoolEntry) :
    held k (log ++ [.accepted k' c]) = held k log ++ if k' = k then [c] else [] := by
  induction log with
  | nil => simp [held]
  | cons entry log ih =>
      cases entry with
      | accepted k₀ c₀ =>
          simp only [List.cons_append, held, ih, List.mem_append, List.mem_singleton, reduceCtorEq, or_false]
          split_ifs <;> rfl
      | deleted k₀ c₀ => exact ih

theorem held_deleted (k k' : String) (c : FlowConnection) (log : List PoolEntry) :
    held k (log ++ [.deleted k' c]) = if k' = k then (held k log).filter (· != c) else held k log := by
  induction log with
  | nil => simp [held]
  | cons entry log ih =>
      cases entry with
      | accepted k₀ c₀ =>
          simp only [List.cons_append, held, ih, List.mem_append, List.mem_singleton, PoolEntry.deleted.injEq]
          by_cases hk : k' = k
          · by_cases hkept : k₀ = k ∧ PoolEntry.deleted k c₀ ∉ log
            · by_cases hc : c₀ = c
              · subst hc
                simp [hk, hkept]
              · simp [hk, hc, hkept]
            · rw [if_neg hkept, if_neg fun hkept' => hkept ⟨hkept'.1, fun hdeleted => hkept'.2 (.inl hdeleted)⟩]
          · simp [hk, Ne.symm hk]
      | deleted k₀ c₀ => exact ih

theorem poolInv_initial : PoolInv conf {} where
  shows := ⟨⟨by simp, by simp, by simp, by simp⟩, fun k => rfl⟩
  once k := List.nodup_nil
  fresh k c hc := by cases hc
  known k hk := absurd rfl hk
  calm := rfl

theorem poolInv_connect (h : PoolInv conf s) (r : Upgrade) : PoolInv conf (poolStep conf s (.connect r)) := by
  simp only [poolStep]
  cases hserve : serve conf s.lists r with
  | error response =>
      have hrefused : s.connections.flowConn conf s.allocated r = .error response := flowConn_of_error h.shows hserve
      rw [hrefused]
      exact h
  | ok rpc' =>
      obtain ⟨fc', hok, hshows⟩ := flowConn_of_ok h.shows hserve
      change FlowConnections.flowConn conf s.connections s.allocated r = .ok fc' at hok
      rw [hok]
      unfold serve at hserve
      split_ifs at hserve with hname hexists hfull hfails
      have hheld : ∀ k, held k (s.log ++ [.accepted r.endpoint s.allocated]) =
          held k s.log ++ if r.endpoint = k then [s.allocated] else [] := fun k => held_accepted k _ _ _
      refine ⟨shows_congr hshows ?_, fun k => ?_, fun k c hc => ?_, fun k hk => ?_, h.calm⟩
      · rw [← Except.ok.inj hserve]
        funext k
        show held k _ = Function.update (fun k => held k s.log) r.endpoint _ k
        rw [hheld]
        by_cases hk : k = r.endpoint
        · subst hk
          rw [if_pos rfl, Function.update_self]
          rfl
        · rw [if_neg (Ne.symm hk), Function.update_of_ne hk, List.append_nil]
      · show (held k _).Nodup
        rw [hheld]
        split_ifs
        · refine (h.once k).append (List.nodup_singleton _) (List.disjoint_singleton.mpr fun hmem => ?_)
          exact lt_irrefl _ (h.fresh k _ hmem)
        · simpa using h.once k
      · change c ∈ held k _ at hc
        rw [hheld] at hc
        obtain hc | hc := List.mem_append.mp hc
        · exact Nat.lt_succ_of_lt (h.fresh k c hc)
        · split_ifs at hc
          · rw [List.mem_singleton.mp hc]
            exact Nat.lt_succ_self _
          · cases hc
      · by_cases hsame : r.endpoint = k
        · exact hsame ▸ ⟨hname, hexists⟩
        · refine h.known k fun hnil => hk ?_
          show held k _ = []
          rw [hheld, if_neg hsame, hnil, List.append_nil]

theorem poolInv_delete (h : PoolInv conf s) (endpointID : String) (c : FlowConnection) :
    PoolInv conf (poolStep conf s (.delete endpointID c)) := by
  obtain ⟨fc', hdelete, hshows⟩ := delete_shows h.shows (h.once endpointID) c
  have hheld : ∀ k, held k (s.log ++ [.deleted endpointID c]) =
      if endpointID = k then (held k s.log).filter (· != c) else held k s.log := fun k => held_deleted k _ _ _
  have hsub : ∀ k, (held k (s.log ++ [.deleted endpointID c])).Sublist (held k s.log) := by
    intro k
    rw [hheld]
    split_ifs
    · exact List.filter_sublist
    · exact .refl _
  simp only [poolStep, hdelete]
  refine ⟨shows_congr hshows ?_, fun k => (h.once k).sublist (hsub k), fun k d hd => h.fresh k d ((hsub k).subset hd),
    fun k hk => h.known k fun hnil => hk ?_, h.calm⟩
  · funext k
    show held k _ = Function.update (fun k => held k s.log) endpointID ((held endpointID s.log).erase c) k
    rw [hheld]
    by_cases hk : k = endpointID
    · subst hk
      rw [if_pos rfl, Function.update_self, (h.once k).erase_eq_filter]
    · rw [if_neg (Ne.symm hk), Function.update_of_ne hk]
  · exact List.eq_nil_of_subset_nil (hnil ▸ (hsub k).subset)

theorem poolLaw_of_inv (h : PoolInv conf s) : PoolLaw conf s := by
  refine ⟨h.shows.lists, h.once, length_le_of_shows h.shows, fun r => ?_, fun intN k => ?_, h.calm⟩
  · have hserve : s.connections.flowConn conf s.allocated r = .error (400, "Maximum connection of agent reached") ↔
        serve conf s.lists r = .error (400, "Maximum connection of agent reached") := flowConn_eq_error_iff h.shows r _
    rw [hserve]
    constructor
    · intro hfull
      unfold serve at hfull
      split_ifs at hfull with hname hexists hlength
      · simp at hfull
      · exact hlength
      · simp at hfull
      · simp at hfull
    · intro hlength
      have hne : held r.endpoint s.log ≠ [] := fun hnil => by simp [hnil] at hlength
      obtain ⟨hname, hexists⟩ := h.known r.endpoint hne
      unfold serve
      rw [if_neg hname, if_neg (not_not.mpr hexists)]
      exact if_pos hlength
  · have hload : s.connections.load intN k = load intN s.lists k := load_shows h.shows intN k
    rw [hload]
    refine ⟨fun c hc => mem_of_load hc, fun hnone => ?_, fun hnil => ?_⟩
    · by_contra hne
      have hconns : s.lists.conns k ≠ [] := hne
      obtain ⟨c, hc⟩ := exists_load intN hconns
      rw [hnone] at hc
      cases hc
    · show load intN s.lists k = none
      have hconns : s.lists.conns k = [] := hnil
      rw [Flow.load, hconns]

end History

/-- Through any connections, refusals and deletions an endpoint has what it was given and what was not taken from it
since, two at most, and a third is refused. -/
theorem pool_law (conf : Config) (events : List PoolEvent) : PoolLaw conf (run (poolStep conf) {} events) := by
  refine poolLaw_of_inv (invariant (poolStep conf) (fun s e h => ?_) poolInv_initial events)
  cases e with
  | connect r => exact poolInv_connect h r
  | delete endpointID c => exact poolInv_delete h endpointID c

end Flow

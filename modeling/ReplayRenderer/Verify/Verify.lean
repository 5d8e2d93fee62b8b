import ReplayRenderer.Splice.Assembly
import ReplayRenderer.Verify.Hv

/-!
The path driver: one `verify_segment` per edge, each from the snapshot of
the node before, up to the first that does not return the node's state hash.
-/

namespace ReplayRenderer

open Lib Lib.Outcome

inductive VerifyResult where
  | verified (endStateHash : StateHash) (segmentsVerified : UInt32)
  | diverged (firstBadSegment : UInt32) (edge : NodeId × NodeId) (expected actual : StateHash)
  deriving DecidableEq

def parentAt (root : PathNode) (edges : List Edge) (i : Nat) : Outcome HvFault PathNode :=
  if i = 0 then .ok root
  else do
    let (prev, _) ← Outcome.expect edges[i - 1]?
    pure prev

section Driver

variable {σ : Type} [HypervisorReplay σ]

/-- The loop from edge `i` on; `lastHash` is what it carries. -/
def verifyLoop (root : PathNode) (edges : List Edge) :
    Nat → StateHash → List Edge → Proc (HvState σ) HvFault VerifyResult
  | _, lastHash, [] => pure (.verified lastHash (UInt32.ofNat edges.length))
  | i, _, (node, segment) :: rest => do
    let segmentIndex := segIdx i
    let parent ← Proc.lift (parentAt root edges i)
    let expected ← Proc.lift (Outcome.expect node.attrs.stateHash)
    let outcome ← HypervisorReplay.verifySegment parent.snapshotRef segment
      { bisectOnDivergence := false, segmentIndex }
    match outcome with
    | .diverged d =>
      pure (.diverged segmentIndex (parent.nodeId, node.nodeId) expected d.endStateHash)
    | .verified actual _ =>
      if actual ≠ expected then
        pure (.diverged segmentIndex (parent.nodeId, node.nodeId) expected actual)
      else
        verifyLoop root edges (i + 1) actual rest

def verify (root : PathNode) (edges : List Edge) : Proc (HvState σ) HvFault VerifyResult :=
  verifyLoop root edges 0 Bytes32.zero edges

end Driver

/-! ### What a walk does -/

/-- The calls of a walk whose first calls returned `results`: one an edge, in
path order, each from the snapshot of the preceding node. -/
def pathCalls (root : PathNode) (edges : List Edge)
    (results : List (Outcome HvFault SegmentOutcome)) : List HvCall :=
  (edges.zip results).mapIdx fun i ((_, segment), result) =>
    .verifySegment (precedingNode root edges i).snapshotRef segment
      { bisectOnDivergence := false, segmentIndex := segIdx i } result

def Passes (edge : Edge) (result : Outcome HvFault SegmentOutcome) : Prop :=
  ∃ hash epochsOk, result = .ok (.verified hash epochsOk) ∧ edge.1.attrs.stateHash = some hash

def stopVerdict (root : PathNode) (edges : List Edge) (i : Nat) (edge : Edge)
    (expected : StateHash) : Outcome HvFault SegmentOutcome → Outcome HvFault VerifyResult
  | .ok outcome =>
    .ok (.diverged (segIdx i) ((precedingNode root edges i).nodeId, edge.1.nodeId) expected
      outcome.endStateHash)
  | .err fault => .err fault
  | .panic => .panic

/-- The state hash of the last node, zero when there is none. -/
def EndsAt (edges : List Edge) (hash : StateHash) : Prop :=
  (edges = [] ∧ hash = Bytes32.zero) ∨
    ∃ goal, edges.getLast? = some goal ∧ goal.1.attrs.stateHash = some hash

/-- A walk of the path: the calls before the last one pass, and the last one
either passes at the end of the path or stops the walk. -/
inductive PathWalk (root : PathNode) (edges : List Edge) :
    List (Outcome HvFault SegmentOutcome) → Outcome HvFault VerifyResult → Prop
  | verified {results : List (Outcome HvFault SegmentOutcome)} {hash : StateHash}
      (passes : List.Forall₂ Passes edges results) (hash_eq : EndsAt edges hash) :
      PathWalk root edges results (.ok (.verified hash (UInt32.ofNat edges.length)))
  | stopped {pre post : List Edge} {edge : Edge} {expected : StateHash}
      {results : List (Outcome HvFault SegmentOutcome)}
      {result : Outcome HvFault SegmentOutcome} (split : edges = pre ++ edge :: post)
      (passes : List.Forall₂ Passes pre results)
      (expected_eq : edge.1.attrs.stateHash = some expected) (fails : ¬Passes edge result) :
      PathWalk root edges (results ++ [result])
        (stopVerdict root edges pre.length edge expected result)

theorem parentAt_eq {root : PathNode} {pre rest : List Edge} :
    parentAt root (pre ++ rest) pre.length =
      .ok (precedingNode root (pre ++ rest) pre.length) := by
  cases hpre : pre.length with
  | zero => rfl
  | succ j =>
      have hj : j < pre.length := by omega
      have hget : (pre ++ rest)[j]? = some pre[j] := by
        rw [List.getElem?_append_left hj, List.getElem?_eq_getElem hj]
      rw [parentAt, if_neg (Nat.succ_ne_zero j), Nat.add_sub_cancel, precedingNode, hget,
        expect_some]
      rfl

section Walk

variable {σ : Type} [HypervisorReplay σ]

theorem pathCalls_append {root : PathNode} {pre post : List Edge} {edge : Edge}
    {results : List (Outcome HvFault SegmentOutcome)}
    {result : Outcome HvFault SegmentOutcome} (hlen : pre.length = results.length) :
    pathCalls root (pre ++ edge :: post) (results ++ [result]) =
      pathCalls root (pre ++ edge :: post) results ++
        [.verifySegment (precedingNode root (pre ++ edge :: post) pre.length).snapshotRef edge.2
          { bisectOnDivergence := false, segmentIndex := segIdx pre.length } result] := by
  have hzip : (pre ++ edge :: post).zip (results ++ [result]) =
      pre.zip results ++ [(edge, result)] := by
    rw [List.zip_append hlen]
    simp
  have hzip' : (pre ++ edge :: post).zip results = pre.zip results := by
    have h := @List.zip_append _ _ pre (edge :: post) results [] hlen
    simpa using h
  have hlen' : (pre.zip results).length = pre.length := by
    rw [List.length_zip]
    omega
  rw [pathCalls, pathCalls, hzip, hzip', List.mapIdx_append, hlen', List.mapIdx_singleton,
    Nat.zero_add]

theorem verifyLoop_cons (root : PathNode) (pre rest : List Edge) {edge : Edge}
    {expected : StateHash} (lastHash : StateHash)
    (hhash : edge.1.attrs.stateHash = some expected) (s : HvState σ) :
    ∃ result s', HypervisorReplay.verifySegment
          (precedingNode root (pre ++ edge :: rest) pre.length).snapshotRef edge.2
          { bisectOnDivergence := false, segmentIndex := segIdx pre.length } s = (result, s') ∧
      (Passes edge result → verifyLoop root (pre ++ edge :: rest) pre.length lastHash
        (edge :: rest) s = verifyLoop root (pre ++ edge :: rest) (pre.length + 1) expected rest
          s') ∧
      (¬Passes edge result → verifyLoop root (pre ++ edge :: rest) pre.length lastHash
        (edge :: rest) s =
          (stopVerdict root (pre ++ edge :: rest) pre.length edge expected result, s')) := by
  obtain ⟨node, segment⟩ := edge
  rcases hcall : HypervisorReplay.verifySegment
    (precedingNode root (pre ++ (node, segment) :: rest) pre.length).snapshotRef segment
    { bisectOnDivergence := false, segmentIndex := segIdx pre.length } s with ⟨result, s'⟩
  refine ⟨result, s', rfl, ?_, ?_⟩
  · rintro ⟨hash, epochsOk, rfl, hhash'⟩
    obtain rfl : expected = hash := Option.some.inj (hhash.symm.trans hhash')
    rw [verifyLoop, parentAt_eq, hhash, expect_some]
    rw [Proc.bind_apply_ok (Proc.lift_apply _ s), Proc.bind_apply_ok (Proc.lift_apply _ s),
      Proc.bind_apply_ok hcall]
    exact congrFun (if_neg (not_not.mpr rfl)) s'
  · intro hfails
    rw [verifyLoop, parentAt_eq, hhash, expect_some]
    rw [Proc.bind_apply_ok (Proc.lift_apply _ s), Proc.bind_apply_ok (Proc.lift_apply _ s)]
    cases result with
    | err fault => rw [Proc.bind_apply_err hcall]; rfl
    | panic => rw [Proc.bind_apply_panic hcall]; rfl
    | ok outcome =>
        rw [Proc.bind_apply_ok hcall]
        cases outcome with
        | diverged d => rfl
        | verified actual epochsOk =>
            have hne : actual ≠ expected := by
              rintro rfl
              exact hfails ⟨actual, epochsOk, rfl, hhash⟩
            exact congrFun (if_pos hne) s'

structure WalkedTo (root : PathNode) (edges pre : List Edge)
    (results : List (Outcome HvFault SegmentOutcome)) (lastHash : StateHash)
    (s : HvState (Logged σ)) : Prop where
  passes : List.Forall₂ Passes pre results
  calls_eq : s.hv.calls = pathCalls root edges results
  lastHash_eq : EndsAt pre lastHash

theorem verifyLoop_walk {root : PathNode} {edges rest : List Edge} :
    ∀ {pre : List Edge} {results : List (Outcome HvFault SegmentOutcome)}
      {lastHash : StateHash} {s : HvState (Logged σ)}, edges = pre ++ rest →
      (∀ edge ∈ rest, edge.1.attrs.stateHash ≠ none) →
      WalkedTo root edges pre results lastHash s →
      ∃ results', (verifyLoop root edges pre.length lastHash rest s).2.hv.calls =
          pathCalls root edges results' ∧
        PathWalk root edges results' (verifyLoop root edges pre.length lastHash rest s).1 := by
  induction rest with
  | nil =>
      intro pre results lastHash s hedges _ hwalked
      obtain rfl : edges = pre := by simpa using hedges
      exact ⟨results, hwalked.calls_eq, .verified hwalked.passes hwalked.lastHash_eq⟩
  | cons edge rest ih =>
      intro pre results lastHash s hedges hhashes hwalked
      subst hedges
      obtain ⟨expected, hexpected⟩ :=
        Option.ne_none_iff_exists'.mp (hhashes edge (List.mem_cons_self ..))
      obtain ⟨result, s', hcall, hpass, hstop⟩ :=
        verifyLoop_cons root pre rest lastHash hexpected s
      have hlen := hwalked.passes.length_eq
      have hcalls : s'.hv.calls = pathCalls root (pre ++ edge :: rest) (results ++ [result]) := by
        have h := calls_verifySegment (precedingNode root (pre ++ edge :: rest)
          pre.length).snapshotRef edge.2
          { bisectOnDivergence := false, segmentIndex := segIdx pre.length } s
        rw [hcall, hwalked.calls_eq] at h
        rw [pathCalls_append hlen, h]
      by_cases hresult : Passes edge result
      · have hnext : WalkedTo root (pre ++ edge :: rest) (pre ++ [edge]) (results ++ [result])
            expected s' :=
          { passes := List.rel_append hwalked.passes (.cons hresult .nil)
            calls_eq := hcalls
            lastHash_eq := .inr ⟨edge, List.getLast?_concat .., hexpected⟩ }
        rw [hpass hresult]
        have hrest := ih (List.append_cons pre edge rest)
          (fun e he => hhashes e (List.mem_cons_of_mem _ he)) hnext
        rwa [List.length_append, List.length_singleton] at hrest
      · rw [hstop hresult]
        exact ⟨results ++ [result], hcalls, .stopped rfl hwalked.passes hexpected hresult⟩

/-- The driver does to a logged hypervisor what it does to the hypervisor. -/
theorem simulates_verifyLoop (root : PathNode) (edges rest : List Edge) :
    ∀ (i : Nat) (lastHash : StateHash),
      Proc.Simulates HvState.bare
        (verifyLoop root edges i lastHash rest : Proc (HvState (Logged σ)) HvFault VerifyResult)
        (verifyLoop root edges i lastHash rest) := by
  induction rest with
  | nil =>
      intro i lastHash
      exact .pure _
  | cons edge rest ih =>
      intro i lastHash
      refine .bind (.lift _) fun parent => ?_
      refine .bind (.lift _) fun expected => ?_
      refine .bind (simulates_verifySegment _ _ _) fun outcome => ?_
      cases outcome with
      | diverged d => exact .pure _
      | verified actual epochsOk =>
          by_cases hne : actual ≠ expected
          · simp only [if_pos hne]
            exact .pure _
          · simp only [if_neg hne]
            exact ih _ _

/-- For any hypervisor, a walk calls `verify_segment` on the edges in order,
without bisection, and stops where the first call does not pass. -/
theorem verify_calls_in_order {root : PathNode} {edges : List Edge}
    (hhashes : ∀ edge ∈ edges, edge.1.attrs.stateHash ≠ none) (s : HvState σ) :
    (verify root edges s.logged).1 = (verify root edges s).1 ∧
      (verify root edges s.logged).2.bare = (verify root edges s).2 ∧
      ∃ results, (verify root edges s.logged).2.hv.calls = pathCalls root edges results ∧
        PathWalk root edges results (verify root edges s).1 := by
  obtain ⟨hval, hstate⟩ :=
    simulates_verifyLoop root edges edges 0 Bytes32.zero s.logged
  have hstart : WalkedTo root edges [] [] Bytes32.zero s.logged :=
    { passes := .nil
      calls_eq := by simp [pathCalls]
      lastHash_eq := .inl ⟨rfl, rfl⟩ }
  obtain ⟨results, hcalls, hwalk⟩ :=
    verifyLoop_walk (List.nil_append edges).symm hhashes hstart
  exact ⟨hval, hstate, results, hcalls, hval ▸ hwalk⟩

end Walk

def steady (hash : StateHash) : HvState Scripted :=
  ⟨⟨fun _ => .ok (.verified hash 0), 0⟩, RunBudget.new 64, []⟩

def failsSecond : HvState Scripted :=
  ⟨⟨fun n => .ok (.verified (if n = 0 then Bytes32.fill 7 else Bytes32.fill 8) 0), 0⟩,
    RunBudget.new 64, []⟩

def threeEdges : List Edge := List.replicate 3 (goalEdge Blake3.hash (Bytes32.fill 2))

theorem verify_calls_in_order_failsSecond :
    (verify bareRoot threeEdges failsSecond.logged).1 =
        (verify bareRoot threeEdges failsSecond).1 ∧
      (verify bareRoot threeEdges failsSecond.logged).2.bare =
        (verify bareRoot threeEdges failsSecond).2 ∧
      ∃ results, (verify bareRoot threeEdges failsSecond.logged).2.hv.calls =
          pathCalls bareRoot threeEdges results ∧
        (verify bareRoot threeEdges failsSecond.logged).2.hv.calls.length = 2 ∧
        PathWalk bareRoot threeEdges results (verify bareRoot threeEdges failsSecond).1 := by
  have hhashes : ∀ edge ∈ threeEdges, edge.1.attrs.stateHash ≠ none := by
    intro edge hedge
    rw [List.eq_of_mem_replicate hedge]
    exact Option.some_ne_none _
  obtain ⟨hresult, hstate, results, hcalls, hwalk⟩ := verify_calls_in_order hhashes failsSecond
  exact ⟨hresult, hstate, results, hcalls, rfl, hwalk⟩

/-- The loop comes to the end of a path every call of which passes. -/
theorem verifyLoop_steady (root : PathNode) {edges rest : List Edge} {hash : StateHash} :
    ∀ {pre : List Edge} (lastHash : StateHash) (s : HvState Scripted), edges = pre ++ rest →
      (∀ edge ∈ rest, edge.1.attrs.stateHash = some hash) →
      (∀ n, s.hv.script n = .ok (.verified hash 0)) →
      ∃ last, (verifyLoop root edges pre.length lastHash rest s).1 =
        .ok (.verified last (UInt32.ofNat edges.length)) := by
  induction rest with
  | nil =>
      intro pre lastHash s _ _ _
      exact ⟨lastHash, rfl⟩
  | cons edge rest ih =>
      intro pre lastHash s hedges hhashes hscript
      subst hedges
      have hhash := hhashes edge (List.mem_cons_self ..)
      obtain ⟨result, s', hcall, hpass, -⟩ :=
        verifyLoop_cons root pre rest lastHash hhash s
      obtain ⟨rfl, rfl⟩ := Prod.mk.inj hcall
      rw [hpass ⟨hash, 0, hscript s.hv.next, hhash⟩]
      have hrest := ih hash ⟨⟨s.hv.script, s.hv.next + 1⟩, s.budget.tryConsume.2, s.events⟩
        (List.append_cons pre edge rest) (fun e he => hhashes e (List.mem_cons_of_mem _ he))
        hscript
      rwa [List.length_append, List.length_singleton] at hrest

/-- The count of segments is a `u32`: a path of `2 ^ 32` segments, all of
which pass, is reported as 0 verified segments. -/
theorem verify_reports_zero_segments :
    (List.replicate (2 ^ 32) (goalEdge Blake3.hash (Bytes32.fill 2))).length = 2 ^ 32 ∧
      (∀ edge ∈ List.replicate (2 ^ 32) (goalEdge Blake3.hash (Bytes32.fill 2)),
        edge.1.attrs.stateHash = some (Bytes32.fill 7)) ∧
      ∃ last, (verify bareRoot
          (List.replicate (2 ^ 32) (goalEdge Blake3.hash (Bytes32.fill 2)))
          (steady (Bytes32.fill 7))).1 = .ok (.verified last 0) := by
  have hhashes : ∀ edge ∈ List.replicate (2 ^ 32) (goalEdge Blake3.hash (Bytes32.fill 2)),
      edge.1.attrs.stateHash = some (Bytes32.fill 7) := by
    intro edge hedge
    obtain rfl := (List.mem_replicate.mp hedge).2
    rfl
  obtain ⟨last, hlast⟩ := verifyLoop_steady bareRoot Bytes32.zero (steady (Bytes32.fill 7))
    (List.nil_append _).symm hhashes (fun _ => rfl)
  rw [List.length_replicate] at hlast
  exact ⟨List.length_replicate, hhashes, last, hlast⟩

end ReplayRenderer

import ReplayRenderer.MockHv.Trips

/-!
One corrupted segment on a path that assembles. The stages ahead of the one
the helper is for look at nothing that changed and pass; at that stage the
first edge that fails is the one that was touched.
-/

namespace ReplayRenderer

open Lib Lib.Outcome

namespace Corruption

def rule : Corruption → RuleId
  | .version _ => .r1
  | .machineConfigHash _ | .clock _ _ => .r2
  | .baseSnapshotId _ => .r3
  | .endStateHash _ | .unsealed | .bodyByte | .missingEnd => .r4
  | .seqGap _ | .recordIcount _ _ => .r5

/-- Where a call on segment `k` shows. Machines are compared with that of the
first segment, so a change to the first shows at the second. -/
def showsAt (c : Corruption) (k : Nat) : Nat := if c.rule = .r2 ∧ k = 0 then 1 else k

end Corruption

def withSegment (edges : List Edge) (k : Nat) (segment : DhilogSegment) : List Edge :=
  edges.modify k fun edge => (edge.1, segment)

section Path

variable {blake3 : Bytes → Bytes32} {root : PathNode} {edges : List Edge}
  {ctx : ContainerContext} {k : Nat} {edge : Edge} {segment' : DhilogSegment}

theorem getElem?_withSegment (i : Nat) :
    (withSegment edges k segment')[i]? =
      edges[i]?.map fun edge => if k = i then (edge.1, segment') else edge := by
  rw [withSegment, List.getElem?_modify]
  rfl

/-- What the segments agree on, the paths agree on. -/
theorem withSegment_agrees {α : Type} (f : DhilogHeader → α) (hk : edges[k]? = some edge)
    (hf : f segment'.header = f edge.2.header) {i : Nat} {x : Edge}
    (hx : (withSegment edges k segment')[i]? = some x) :
    ∃ y, edges[i]? = some y ∧ x.1 = y.1 ∧ f x.2.header = f y.2.header := by
  rw [getElem?_withSegment] at hx
  obtain ⟨y, hy, rfl⟩ := Option.map_eq_some_iff.mp hx
  refine ⟨y, hy, ?_⟩
  by_cases hik : k = i
  · subst hik
    obtain rfl : edge = y := Option.some.inj (hk.symm.trans hy)
    rw [if_pos rfl]
    exact ⟨rfl, hf⟩
  · rw [if_neg hik]
    exact ⟨rfl, rfl⟩

theorem precedingNode_withSegment (i : Nat) :
    precedingNode root (withSegment edges k segment') i = precedingNode root edges i := by
  cases i with
  | zero => rfl
  | succ i =>
      rw [precedingNode, precedingNode, getElem?_withSegment]
      cases edges[i]? with
      | none => rfl
      | some edge =>
          simp only [Option.map_some]
          split <;> rfl

theorem versions_withSegment (hpass : Stage.Passes blake3 root edges .versions)
    (hk : edges[k]? = some edge) (hversion : segment'.header.version = edge.2.header.version) :
    Stage.Passes blake3 root (withSegment edges k segment') .versions := by
  intro i x hx
  obtain ⟨y, hy, -, hxy⟩ := withSegment_agrees DhilogHeader.version hk hversion hx
  refine ⟨by rw [hxy]; exact (hpass i y hy).1, ?_⟩
  intro first hfirst
  rw [List.head?_eq_getElem?] at hfirst
  obtain ⟨y₀, hy₀, -, hfirst'⟩ := withSegment_agrees DhilogHeader.version hk hversion hfirst
  rw [hxy, hfirst']
  exact (hpass i y hy).2 y₀ (by rw [List.head?_eq_getElem?, hy₀])

/-- What R2 compares. -/
def DhilogHeader.machine (h : DhilogHeader) : Bytes32 × UInt32 × UInt32 :=
  (h.machineConfigHash, h.clockNum, h.clockDen)

theorem machine_holds_iff {i : Nat} {x : Edge} :
    Stage.Holds blake3 root edges .machine i x ↔
      ∀ first, edges[0]? = some first → x.2.header.machine = first.2.header.machine := by
  simp [Stage.Holds, DhilogHeader.machine, List.head?_eq_getElem?]

theorem machine_withSegment (hpass : Stage.Passes blake3 root edges .machine)
    (hk : edges[k]? = some edge) (hmachine : segment'.header.machine = edge.2.header.machine) :
    Stage.Passes blake3 root (withSegment edges k segment') .machine := by
  intro i x hx
  obtain ⟨y, hy, -, hxy⟩ := withSegment_agrees DhilogHeader.machine hk hmachine hx
  rw [machine_holds_iff]
  intro first hfirst
  obtain ⟨y₀, hy₀, -, hfirst'⟩ := withSegment_agrees DhilogHeader.machine hk hmachine hfirst
  rw [hxy, hfirst']
  exact machine_holds_iff.mp (hpass i y hy) y₀ hy₀

theorem adjacency_withSegment (hpass : Stage.Passes blake3 root edges .adjacency)
    (hk : edges[k]? = some edge)
    (hbase : segment'.header.baseSnapshotId = edge.2.header.baseSnapshotId)
    (hend : segment'.header.endSnapshotId = edge.2.header.endSnapshotId) :
    Stage.Passes blake3 root (withSegment edges k segment') .adjacency := by
  intro i x hx
  obtain ⟨y, hy, hnode, hxy⟩ := withSegment_agrees DhilogHeader.baseSnapshotId hk hbase hx
  obtain ⟨hbase', hprev', hparent'⟩ := hpass i y hy
  refine ⟨?_, ?_, ?_⟩
  · rw [precedingNode_withSegment, hxy]
    exact hbase'
  · intro j hij prev hprev
    obtain ⟨q, hq, hqnode, hqend⟩ := withSegment_agrees DhilogHeader.endSnapshotId hk hend hprev
    rw [hqnode, hqend]
    exact hprev' j hij q hq
  · rw [precedingNode_withSegment, hnode]
    exact hparent'

/-- A stage that fails, after stages that pass, is what assembly reports. -/
theorem assemble_eq_err {pre post : List Stage} {stage : Stage} {e : SpliceError}
    (hne : edges ≠ []) (hall : Stage.all = pre ++ stage :: post)
    (hpre : ∀ s ∈ pre, s.Passes blake3 root edges) (hrun : stage.run blake3 root edges = .err e) :
    assemble blake3 root edges ctx = .err e := by
  obtain ⟨first, goal, hfirst, hgoal⟩ := exists_ends hne
  have hran : ∀ s ∈ pre, s.run blake3 root edges = .ok () := by
    intro s hs
    refine (Stage.decides s ?_).ok_iff.mpr (hpre s hs)
    rintro rfl
    obtain ⟨before, after, rfl⟩ := List.append_of_mem hs
    have hsplit : Stage.all = before ++ .digests :: (after ++ stage :: post) := by
      rw [hall, List.append_assoc, List.cons_append]
    exact hpre _ (List.mem_append_left _ (stateHashes_mem_of_digests hsplit))
  rw [assemble_eq hfirst hgoal, hall, runAll_of_err hran hrun, err_bind]

theorem getElem?_withSegment_self (hk : edges[k]? = some edge) :
    (withSegment edges k segment')[k]? = some (edge.1, segment') := by
  rw [getElem?_withSegment, hk, Option.map_some, if_pos rfl]

theorem getElem?_withSegment_of_ne {i : Nat} (hne : k ≠ i) :
    (withSegment edges k segment')[i]? = edges[i]? := by
  rw [getElem?_withSegment]
  simp only [if_neg hne, Option.map_id']

theorem withSegment_ne_nil (hk : edges[k]? = some edge) :
    withSegment edges k segment' ≠ [] := by
  intro hnil
  have hself : (withSegment edges k segment')[k]? = some (edge.1, segment') :=
    getElem?_withSegment_self hk
  simp [hnil] at hself

theorem ViolatesAt.eq_segIdx {rule : RuleId} {i : Nat} {e : SpliceError}
    (h : ViolatesAt rule i e) : ∃ detail, e = .rule rule (segIdx i) detail := by
  obtain ⟨idx, detail, rfl, hidx⟩ := h
  obtain rfl : idx = segIdx i := by
    apply UInt32.toNat_inj.mp
    rw [hidx, segIdx, UInt32.toNat_ofNat']
  exact ⟨detail, rfl⟩

variable (segment') (hpass : ∀ stage : Stage, stage.Passes blake3 root edges)
  (hk : edges[k]? = some edge)

include hpass hk

theorem reports_version (hversion : segment'.header.version ∉ supportedDhilogVersions) :
    ∃ detail, assemble blake3 root (withSegment edges k segment') ctx =
      .err (.rule .r1 (segIdx k) detail) := by
  have hnot : ¬Stage.Holds blake3 root (withSegment edges k segment') .versions k
      (edge.1, segment') := fun h => hversion h.1
  have hbefore : ∀ j < k, ∀ x, (withSegment edges k segment')[j]? = some x →
      Stage.Holds blake3 root (withSegment edges k segment') .versions j x := by
    intro j hj x hx
    rw [getElem?_withSegment_of_ne (by omega)] at hx
    refine ⟨(hpass .versions j x hx).1, ?_⟩
    rw [List.head?_eq_getElem?, getElem?_withSegment_of_ne (by omega),
      ← List.head?_eq_getElem?]
    exact (hpass .versions j x hx).2
  obtain ⟨e, hrun, hfails⟩ :=
    (Stage.decides .versions (by simp)).fails_at (getElem?_withSegment_self hk) hnot hbefore
  obtain ⟨detail, rfl⟩ := ViolatesAt.eq_segIdx hfails
  have hall : Stage.all = [] ++ .versions :: Stage.all.drop 1 := rfl
  exact ⟨detail, assemble_eq_err (withSegment_ne_nil hk) hall (by simp) hrun⟩

theorem reports_machine (hversion : segment'.header.version = edge.2.header.version)
    (hmachine : segment'.header.machine ≠ edge.2.header.machine) (hlen : 1 < edges.length) :
    ∃ detail, assemble blake3 root (withSegment edges k segment') ctx =
      .err (.rule .r2 (segIdx (if k = 0 then 1 else k)) detail) := by
  have hself : (withSegment edges k segment')[k]? = some (edge.1, segment') :=
    getElem?_withSegment_self hk
  obtain ⟨first, hfirst⟩ : ∃ first, edges[0]? = some first :=
    ⟨_, List.getElem?_eq_getElem (by omega)⟩
  have hsame : ∀ (i : Nat) (x : Edge), edges[i]? = some x →
      x.2.header.machine = first.2.header.machine :=
    fun i x hx => machine_holds_iff.mp (hpass .machine i x hx) first hfirst
  have hat : ∃ x, (withSegment edges k segment')[if k = 0 then 1 else k]? = some x ∧
      ¬Stage.Holds blake3 root (withSegment edges k segment') .machine
        (if k = 0 then 1 else k) x := by
    by_cases hzero : k = 0
    · -- the second segment is the first to differ
      subst hzero
      have hx := List.getElem?_eq_getElem hlen
      refine ⟨edges[1], by rw [if_pos rfl, getElem?_withSegment_of_ne (by omega), hx], ?_⟩
      rw [machine_holds_iff]
      intro hall
      have heq := hall _ hself
      rw [hsame 1 _ hx, ← hsame 0 _ hk] at heq
      exact hmachine heq.symm
    · refine ⟨_, by rw [if_neg hzero]; exact hself, ?_⟩
      rw [machine_holds_iff]
      intro hall
      have heq := hall first (by rw [getElem?_withSegment_of_ne hzero, hfirst])
      rw [← hsame k edge hk] at heq
      exact hmachine heq
  obtain ⟨x, hx, hnot⟩ := hat
  have hbefore : ∀ j < (if k = 0 then 1 else k), ∀ y,
      (withSegment edges k segment')[j]? = some y →
        Stage.Holds blake3 root (withSegment edges k segment') .machine j y := by
    intro j hj y hy
    rw [machine_holds_iff]
    intro first' hfirst'
    by_cases hzero : k = 0
    · obtain rfl : j = 0 := by
        rw [if_pos hzero] at hj
        omega
      obtain rfl : y = first' := Option.some.inj (hy.symm.trans hfirst')
      rfl
    · rw [if_neg hzero] at hj
      rw [getElem?_withSegment_of_ne (by omega)] at hy hfirst'
      rw [hsame j y hy, hsame 0 first' hfirst']
  obtain ⟨e, hrun, hfails⟩ := (Stage.decides .machine (by simp)).fails_at hx hnot hbefore
  obtain ⟨detail, rfl⟩ := ViolatesAt.eq_segIdx hfails
  have hall : Stage.all = [.versions] ++ .machine :: Stage.all.drop 2 := rfl
  refine ⟨detail, assemble_eq_err (withSegment_ne_nil hk) hall ?_ hrun⟩
  intro s hs
  obtain rfl := List.mem_singleton.mp hs
  exact versions_withSegment (hpass .versions) hk hversion

theorem reports_base (hversion : segment'.header.version = edge.2.header.version)
    (hmachine : segment'.header.machine = edge.2.header.machine)
    (hbase : segment'.header.baseSnapshotId ≠ edge.2.header.baseSnapshotId) :
    ∃ detail, assemble blake3 root (withSegment edges k segment') ctx =
      .err (.rule .r3 (segIdx k) detail) := by
  have hnot : ¬Stage.Holds blake3 root (withSegment edges k segment') .adjacency k
      (edge.1, segment') := by
    rintro ⟨hat, -⟩
    rw [precedingNode_withSegment, ← (hpass .adjacency k edge hk).1] at hat
    exact hbase hat
  have hbefore : ∀ j < k, ∀ x, (withSegment edges k segment')[j]? = some x →
      Stage.Holds blake3 root (withSegment edges k segment') .adjacency j x := by
    intro j hj x hx
    rw [getElem?_withSegment_of_ne (by omega)] at hx
    obtain ⟨hat, hprev, hparent⟩ := hpass .adjacency j x hx
    refine ⟨by rwa [precedingNode_withSegment], ?_, by rwa [precedingNode_withSegment]⟩
    intro j' hj' prev hprev'
    rw [getElem?_withSegment_of_ne (by omega)] at hprev'
    exact hprev j' hj' prev hprev'
  obtain ⟨e, hrun, hfails⟩ :=
    (Stage.decides .adjacency (by simp)).fails_at (getElem?_withSegment_self hk) hnot hbefore
  obtain ⟨detail, rfl⟩ := ViolatesAt.eq_segIdx hfails
  have hall : Stage.all = [.versions, .machine] ++ .adjacency :: Stage.all.drop 3 := rfl
  refine ⟨detail, assemble_eq_err (withSegment_ne_nil hk) hall ?_ hrun⟩
  intro s hs
  simp only [List.mem_cons, List.not_mem_nil, or_false] at hs
  rcases hs with rfl | rfl
  · exact versions_withSegment (hpass .versions) hk hversion
  · exact machine_withSegment (hpass .machine) hk hmachine

theorem reports_structure (hversion : segment'.header.version = edge.2.header.version)
    (hmachine : segment'.header.machine = edge.2.header.machine)
    (hbase : segment'.header.baseSnapshotId = edge.2.header.baseSnapshotId)
    (hend : segment'.header.endSnapshotId = edge.2.header.endSnapshotId)
    {issue : StructuralIssue} (hissue : validateStructure blake3 segment' = .err issue) :
    assemble blake3 root (withSegment edges k segment') ctx =
      .err (.rule issue.rule (segIdx k) issue.detail) := by
  have hrun : r4R5Structure blake3 (withSegment edges k segment') =
      .err (.rule issue.rule (segIdx k) issue.detail) := by
    rw [r4R5Structure, forEnumerate_eq_err]
    refine ⟨k, _, getElem?_withSegment_self hk, ?_, ?_⟩
    · simp only [hissue, mapErr, Nat.zero_add]
    · intro j hj x hx
      rw [getElem?_withSegment_of_ne (by omega)] at hx
      have hok : validateStructure blake3 x.2 = .ok () := hpass .structural j x hx
      simp only [hok, mapErr]
  have hall : Stage.all =
      [.versions, .machine, .adjacency] ++ .structural :: Stage.all.drop 4 := rfl
  refine assemble_eq_err (withSegment_ne_nil hk) hall ?_ hrun
  intro s hs
  simp only [List.mem_cons, List.not_mem_nil, or_false] at hs
  rcases hs with rfl | rfl | rfl
  · exact versions_withSegment (hpass .versions) hk hversion
  · exact machine_withSegment (hpass .machine) hk hmachine
  · exact adjacency_withSegment (hpass .adjacency) hk hbase hend

omit segment' hpass hk in
theorem accepts_machine {edge : Edge} {segment' : DhilogSegment}
    (hpass : ∀ stage : Stage, stage.Passes blake3 root [edge])
    (hversion : segment'.header.version = edge.2.header.version)
    (hbase : segment'.header.baseSnapshotId = edge.2.header.baseSnapshotId)
    (hstate : segment'.header.endStateHash = edge.2.header.endStateHash)
    (hstructure : validateStructure blake3 segment' = .ok ()) :
    ∃ container, assemble blake3 root [(edge.1, segment')] ctx = .ok container := by
  refine ⟨_, assemble_eq_ok.mpr ⟨?_, _, _, rfl, rfl, rfl⟩⟩
  intro stage i x hx
  cases i with
  | succ i => simp at hx
  | zero =>
      obtain rfl : (edge.1, segment') = x := by simpa using hx
      have hold : stage.Holds blake3 root [edge] 0 edge := hpass stage 0 edge rfl
      cases stage with
      | versions =>
          refine ⟨by rw [hversion]; exact hold.1, ?_⟩
          intro first hfirst
          obtain rfl : (edge.1, segment') = first := by simpa using hfirst
          rfl
      | machine =>
          intro first hfirst
          obtain rfl : (edge.1, segment') = first := by simpa using hfirst
          exact ⟨rfl, rfl⟩
      | adjacency => exact ⟨by rw [hbase]; exact hold.1, by simp, hold.2.2⟩
      | structural => exact hstructure
      | stateHashes => exact hold
      | digests =>
          change edge.1.attrs.stateHash = some segment'.header.endStateHash
          rw [hstate]
          exact hold
      | logIds => exact hold

omit segment' hpass hk in
/-- One helper on one segment of a path that assembles: assembly reports the
rule the helper is for, at the segment where it shows. The one call that no
rule sees is another machine on a path of one segment. -/
theorem assemble_corrupted {container : DilogContainer} {rs : List Record} {c : Corruption}
    (hok : assemble blake3 root edges ctx = .ok container) (hk : edges[k]? = some edge)
    (hs : SealedSegment blake3 edge.2 rs) (hd : c.Damages blake3 edge.2.header rs) :
    ∃ segment' : DhilogSegment,
      (c.apply blake3 edge.2.bytes : Outcome Empty Bytes) = .ok segment'.bytes ∧
        if c.rule = .r2 ∧ edges.length = 1 then
          ∃ container', assemble blake3 root (withSegment edges k segment') ctx = .ok container'
        else
          ∃ detail, assemble blake3 root (withSegment edges k segment') ctx =
              .err (.rule c.rule (segIdx (c.showsAt k)) detail) ∧
            ∀ issue, c.verdict edge.2.header = .err issue → issue.detail = detail := by
  have hpass := (assemble_eq_ok.mp hok).1
  have hstructure := Corruption.validateStructure_made hs hd
  have hlt := (List.getElem?_eq_some_iff.mp hk).1
  refine ⟨_, Corruption.apply_eq hs hd, ?_⟩
  generalize hmade : c.made blake3 edge.2.header rs = segment' at hstructure ⊢
  by_cases hr2 : c.rule = .r2
  · -- another machine, which a lone segment does not show
    have hheader : segment'.header.version = edge.2.header.version ∧
        segment'.header.baseSnapshotId = edge.2.header.baseSnapshotId ∧
        segment'.header.endStateHash = edge.2.header.endStateHash ∧
        segment'.header.machine ≠ edge.2.header.machine ∧ c.verdict edge.2.header = .ok () := by
      subst hmade
      cases c <;> simp only [Corruption.rule, reduceCtorEq] at hr2
      case machineConfigHash hash =>
        exact ⟨rfl, rfl, rfl, fun heq => hd (congrArg Prod.fst heq), rfl⟩
      case clock num den => exact ⟨rfl, rfl, rfl, fun heq => hd (congrArg Prod.snd heq), rfl⟩
    obtain ⟨hversion, hbase, hstate, hne, hverdict⟩ := hheader
    by_cases hlen : edges.length = 1
    · rw [if_pos ⟨hr2, hlen⟩]
      obtain ⟨only, rfl⟩ := List.length_eq_one_iff.mp hlen
      obtain rfl : k = 0 := by omega
      obtain rfl : only = edge := by simpa using hk
      exact accepts_machine hpass hversion hbase hstate (by rw [hstructure, hverdict])
    · rw [if_neg fun h => hlen h.2]
      obtain ⟨detail, herr⟩ : ∃ detail,
          assemble blake3 root (withSegment edges k segment') ctx =
            .err (.rule .r2 (segIdx (if k = 0 then 1 else k)) detail) :=
        reports_machine segment' hpass hk hversion hne (by omega)
      refine ⟨detail, ?_, by simp [hverdict]⟩
      simp only [herr, hr2, Corruption.showsAt, true_and]
  · rw [if_neg fun h => hr2 h.1]
    have hat : c.showsAt k = k := if_neg fun h => hr2 h.1
    rw [hat]
    cases hverdict : c.verdict edge.2.header with
    | panic => exact absurd hstructure (by rw [hverdict]; exact validateStructure_ne_panic _ _)
    | err issue =>
        -- the validator sees it, and R1 to R3 do not
        have hheader : segment'.header.version = edge.2.header.version ∧
            segment'.header.machine = edge.2.header.machine ∧
            segment'.header.baseSnapshotId = edge.2.header.baseSnapshotId ∧
            segment'.header.endSnapshotId = edge.2.header.endSnapshotId ∧
            issue.rule = c.rule := by
          subst hmade
          cases c <;> simp only [Corruption.verdict, reduceCtorEq] at hverdict
          case endStateHash hash =>
            refine ⟨rfl, rfl, rfl, rfl, ?_⟩
            split at hverdict <;> cases hverdict <;> rfl
          all_goals
            cases hverdict
            exact ⟨rfl, rfl, rfl, rfl, rfl⟩
        obtain ⟨hversion, hmachine, hbase, hend, hrule⟩ := hheader
        rw [hverdict] at hstructure
        refine ⟨issue.detail, ?_, by simp⟩
        rw [reports_structure segment' hpass hk hversion hmachine hbase hend hstructure, hrule]
    | ok u =>
        -- the segment is well formed by itself: R1 or R3 compares it with something else
        have hsome : ∃ detail, assemble blake3 root (withSegment edges k segment') ctx =
            .err (.rule c.rule (segIdx k) detail) := by
          subst hmade
          cases c <;> simp only [Corruption.verdict, reduceCtorEq] at hverdict
          case version v => exact reports_version _ hpass hk hd
          case machineConfigHash hash => exact absurd rfl hr2
          case clock num den => exact absurd rfl hr2
          case baseSnapshotId id => exact reports_base _ hpass hk rfl rfl hd
          case endStateHash hash => split at hverdict <;> cases hverdict
        obtain ⟨detail, herr⟩ := hsome
        exact ⟨detail, herr, by simp⟩

omit segment' hpass hk in
theorem assemble_corrupted_bare :
    ∃ segment' : DhilogSegment,
      ((Corruption.seqGap 0).apply Blake3.hash
          (goalEdge Blake3.hash (Bytes32.fill 2)).2.bytes : Outcome Empty Bytes) =
        .ok segment'.bytes ∧
      if (Corruption.seqGap 0).rule = .r2 ∧
          [goalEdge Blake3.hash (Bytes32.fill 2)].length = 1 then
        ∃ container', assemble Blake3.hash bareRoot
          (withSegment [goalEdge Blake3.hash (Bytes32.fill 2)] 0 segment') bareContext =
            .ok container'
      else
        ∃ detail, assemble Blake3.hash bareRoot
            (withSegment [goalEdge Blake3.hash (Bytes32.fill 2)] 0 segment') bareContext =
              .err (.rule (Corruption.seqGap 0).rule (segIdx ((Corruption.seqGap 0).showsAt 0))
                detail) ∧
          ∀ issue, (Corruption.seqGap 0).verdict
            (goalEdge Blake3.hash (Bytes32.fill 2)).2.header = .err issue →
              issue.detail = detail :=
  assemble_corrupted (assemble_goalEdge Blake3.hash (Bytes32.fill 2)) rfl
    (sealedSegment_bare Blake3.hash (Bytes32.fill 1) (Bytes32.fill 2)) ⟨by decide, by decide⟩

end Path

end ReplayRenderer

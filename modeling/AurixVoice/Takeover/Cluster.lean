import AurixVoice.Takeover.MirrorStore

/-!
One session on the nodes of a cluster. Everything between two awaits is one step; of a mirror only the hash of
the resume token is kept.
-/

namespace AurixVoice.Takeover

open Function

variable {H : Type}

structure Conn (H : Type) where
  resumeHash : H
  detached : Bool
  closing : Bool

/-- Where `adopt_mirrored_session` is suspended; `previous` is the owner it read. -/
inductive Phase (H : Type)
  | reading
  | claiming (previous : Option NodeId)
  | claimed (previous : Option NodeId)
  | adopted (previous : Option NodeId)
  | creating (previous : Option NodeId)
  | releasing (previous : Option NodeId)
  | restoring
  | mirroring (hash : H)
  | evicting
  | finishing
  | done
  | failed
  deriving DecidableEq

def Phase.inFlight : Phase H → Bool
  | .reading | .claiming _ | .done | .failed => false
  | _ => true

def Phase.attached : Phase H → Bool
  | .restoring | .mirroring _ | .evicting | .finishing | .done => true
  | _ => false

structure Run (H : Type) where
  node : NodeId
  presented : H
  fresh : H
  phase : Phase H
  fenced : Bool

inductive Task (H : Type)
  | write (node : NodeId) (hash : H)
  | evict (node : NodeId)
  | delete (node : NodeId)
  | teardown (node : NodeId)
  deriving DecidableEq

def Task.node : Task H → NodeId
  | .write node _ | .evict node | .delete node | .teardown node => node

inductive Fault
  | answered
  | lostBefore
  | lostAfter
  deriving DecidableEq

inductive DbAnswer
  | migrated
  | missing
  | failed

structure Input where
  fault : Fault
  refused : Bool
  db : DbAnswer

structure Cluster (H : Type) where
  ttlSecs : ℕ
  store : MirrorStore H
  hosted : NodeId → Bool
  conns : NodeId → Option (Conn H)
  resuming : List (NodeId × H)
  tasks : List (Task H)
  runs : List (Run H)
  opened : Bool
  closed : Bool
  issued : List H
  current : Option H
  admitted : List H

namespace Cluster

variable (s : Cluster H)

variable (node : NodeId) (i : ℕ)

variable (r : Run H) (previous : Option NodeId) (fault : Fault)

def fence (p : Run H → Bool) : Cluster H :=
  { s with runs := s.runs.map fun r => if p r then { r with fenced := true } else r }

def setPhase (phase : Phase H) : Cluster H :=
  { s with runs := s.runs.modify i fun r => { r with phase := phase } }

def buildMirror : Option H :=
  (s.conns node).bind fun conn => if conn.closing || !s.hosted node then none else some conn.resumeHash

def mirrorSession : Cluster H :=
  { s with tasks := s.tasks ++ ((s.buildMirror node).map (Task.write node)).toList }

def dropLocal : Cluster H :=
  fence { s with hosted := update s.hosted node false, conns := update s.conns node none }
    fun r => decide (r.node = node) && r.phase.attached

def evictMigrated : Cluster H := if (s.conns node).isNone then s else s.dropLocal node

def insertConn (hash : H) : Cluster H :=
  { s with conns := update s.conns node (some ⟨hash, false, false⟩) }

def claim : Cluster H :=
  let result := s.store.claimSession r.node (previous.getD r.node) s.ttlSecs
  if fault = .lostBefore ∨ result.1 ≠ .ok () then s.setPhase i .failed
  else
    let s := fence { s with store := result.2 } fun other => other.node ≠ r.node
    { s with
      runs := s.runs.modify i fun r =>
        { r with phase := if fault = .answered then .claimed previous else .failed, fenced := false } }

def release : Cluster H :=
  let s := s.setPhase i .failed
  if fault = .lostBefore then s else { s with store := (s.store.releaseSessionClaim r.node previous).2 }

def adopt (refused : Bool) : Cluster H :=
  if s.hosted r.node || refused then s.setPhase i (.releasing previous)
  else { s.setPhase i (.adopted previous) with hosted := update s.hosted r.node true }

def giveUp : Cluster H :=
  { s.setPhase i (.releasing previous) with hosted := update s.hosted r.node false }

def writeMirror (hash : H) (fault : Fault) : Cluster H :=
  let result := s.store.writeSessionMirror r.node hash s.ttlSecs
  let s := if fault = .lostBefore then s else { s with store := result.2 }
  s.setPhase i (if fault = .answered && !result.1 then .evicting else .finishing)

def complete : Cluster H :=
  { s.setPhase i .done with current := some r.fresh, admitted := s.admitted ++ [r.presented] }

def startCleanup : Cluster H := { s with tasks := s.tasks ++ [.delete node] }

def takeDetached : Cluster H :=
  match s.conns node with
  | none => s
  | some conn =>
    if conn.detached then
      startCleanup { s with conns := update s.conns node (some { conn with detached := false }) } node
    else s

def requestClose : Cluster H :=
  match s.conns node with
  | none => s
  | some conn =>
    takeDetached { s with conns := update s.conns node (some { conn with closing := true }) } node

/-- A connection the node has for the session is replaced before the session is adopted. The cleanup
of a detached one is awaited; a run may go on here before it has ended. -/
def stepRun (input : Input) : Cluster H :=
  match r.phase with
  | .reading => s.setPhase i (.claiming (if input.fault = .answered then s.store.getSessionNode else none))
  | .claiming previous => s.claim i r previous input.fault
  | .claimed previous =>
    if (s.conns r.node).any Conn.detached then s.takeDetached r.node
    else (s.requestClose r.node).adopt i r previous input.refused
  | .adopted previous =>
    match input.db with
    | .migrated => (s.insertConn r.node r.fresh).setPhase i .restoring
    | .missing => s.setPhase i (.creating previous)
    | .failed => s.giveUp i r previous
  | .creating previous =>
    match input.db with
    | .failed => s.giveUp i r previous
    | _ => (s.insertConn r.node r.fresh).setPhase i .restoring
  | .releasing previous => s.release i r previous input.fault
  | .restoring => s.setPhase i (((s.buildMirror r.node).map Phase.mirroring).getD .finishing)
  | .mirroring hash => s.writeMirror i r hash input.fault
  | .evicting => (s.evictMigrated r.node).setPhase i .finishing
  | .finishing => s.complete i r
  | .done | .failed => s

def runWrite (hash : H) (fault : Fault) : Cluster H :=
  let result := s.store.writeSessionMirror node hash s.ttlSecs
  let s := if fault = .lostBefore then s else { s with store := result.2 }
  if fault = .answered && !result.1 then { s with tasks := s.tasks ++ [.evict node] } else s

def runDelete : Cluster H :=
  let result := s.store.deleteSessionMirror node
  let next := if fault = .answered && !result.1 then .evict node else .teardown node
  if fault = .lostBefore || !result.1 then { s with tasks := s.tasks ++ [next] }
  else
    fence
      { s with
        store := result.2
        tasks := s.tasks ++ [next]
        closed := s.closed || decide (s.store.getSessionNode = some node) }
      fun r => r.node = node

def runTask (task : Task H) (fault : Fault) : Cluster H :=
  match task with
  | .write node hash => s.runWrite node hash fault
  | .evict node => s.evictMigrated node
  | .delete node => s.runDelete node fault
  | .teardown node => s.dropLocal node

def dropped : Cluster H :=
  match s.conns node with
  | none => s.startCleanup node
  | some conn =>
    if conn.closing then s.startCleanup node
    else { s with conns := update s.conns node (some { conn with detached := true }) }

def claimResume [DecidableEq H] (node : NodeId) (presented : H) (ofUser : Bool) : Cluster H :=
  match s.conns node with
  | none => s
  | some conn =>
    if !conn.detached || conn.closing || !ofUser || presented ≠ conn.resumeHash then s
    else
      { s with
        conns := update s.conns node (some { conn with detached := false })
        resuming := s.resuming ++ [(node, presented)] }

def reattach (fresh : H) : Cluster H :=
  match s.resuming[i]? with
  | none => s
  | some (node, presented) =>
    let s := { s with resuming := s.resuming.eraseIdx i, issued := s.issued ++ [fresh] }
    match s.conns node with
    | none => s.startCleanup node
    | some conn =>
      if s.hosted node then
        mirrorSession
          { s with
            conns := update s.conns node (some { conn with resumeHash := fresh })
            current := some fresh
            admitted := s.admitted ++ [presented] }
          node
      else s.startCleanup node

def openSession (fresh : H) : Cluster H :=
  if s.opened then s
  else
    { s.insertConn node fresh with
      hosted := update s.hosted node true
      opened := true
      issued := s.issued ++ [fresh]
      current := some fresh }

def crash : Cluster H :=
  let s := s.dropLocal node
  { s with
    resuming := s.resuming.filter fun e => e.1 ≠ node
    tasks := s.tasks.filter fun t => t.node ≠ node
    runs := s.runs.map fun r => if r.node = node then { r with phase := .failed } else r }

def takeoverCandidate [DecidableEq H] (node : NodeId) (presented : H) (ofUser : Bool) : Bool :=
  (s.conns node).isNone && ofUser && decide (s.store.getSessionMirror = some presented)

end Cluster

inductive Event (H : Type)
  | tick (ms : ℕ)
  | open (node : NodeId) (fresh : H)
  | dropped (node : NodeId)
  | logout (node : NodeId)
  | requestClose (node : NodeId)
  | graceTimer (node : NodeId)
  | mediaTimeout (node : NodeId)
  | crash (node : NodeId)
  | claimResume (node : NodeId) (presented : H) (ofUser : Bool)
  | reattach (i : ℕ) (fresh : H)
  | abandon (i : ℕ)
  | mirror (node : NodeId)
  | task (i : ℕ) (fault : Fault)
  | takeover (node : NodeId) (presented fresh : H) (ofUser : Bool)
  | run (i : ℕ) (input : Input)

variable [DecidableEq H]

def step (s : Cluster H) : Event H → Cluster H
  | .tick ms => { s with store := { s.store with now := s.store.now + ms } }
  | .open node fresh => s.openSession node fresh
  | .dropped node => s.dropped node
  | .logout node => s.startCleanup node
  | .requestClose node => s.requestClose node
  | .graceTimer node => s.takeDetached node
  | .mediaTimeout node => { s with hosted := update s.hosted node false }
  | .crash node => s.crash node
  | .claimResume node presented ofUser => s.claimResume node presented ofUser
  | .reattach i fresh => s.reattach i fresh
  | .abandon i => { s with resuming := s.resuming.eraseIdx i }
  | .mirror node => s.mirrorSession node
  | .task i fault =>
    match s.tasks[i]? with
    | none => s
    | some task => Cluster.runTask { s with tasks := s.tasks.eraseIdx i } task fault
  | .takeover node presented fresh ofUser =>
    if s.takeoverCandidate node presented ofUser then
      { s with
        runs := s.runs ++ [⟨node, presented, fresh, .reading, false⟩]
        issued := s.issued ++ [fresh] }
    else s
  | .run i input =>
    match s.runs[i]? with
    | none => s
    | some r => s.stepRun i r input

structure Unopened (s : Cluster H) : Prop where
  owner : s.store.getSessionNode = none
  mirror : s.store.getSessionMirror = none
  hosted : ∀ node, s.hosted node = false
  conns : ∀ node, s.conns node = none
  resuming : s.resuming = []
  tasks : s.tasks = []
  runs : s.runs = []
  opened : s.opened = false
  closed : s.closed = false
  issued : s.issued = []
  current : s.current = none
  admitted : s.admitted = []

def Sample.mirrored : Cluster ℕ where
  ttlSecs := 120
  store := ⟨0, .setEx 0 120 1, .setEx 0 120 10⟩
  hosted := update (fun _ => false) 1 true
  conns := update (fun _ => none) 1 (some ⟨10, false, false⟩)
  resuming := []
  tasks := []
  runs := []
  opened := true
  closed := false
  issued := [10]
  current := some 10
  admitted := []

end AurixVoice.Takeover

import CircuitAI.Framework.QueueTree
import CircuitAI.Proof.EnergyGrid.Graph

/-!
# How often a search expands a pylon

The searches of `CheckConnection` mark a pylon when they take it from the queue and do not look at the mark again, so
that a pylon that waits in the queue is appended once more by each further neighbour that is expanded before it. A search
that goes on to its end expands every pylon once exactly if the neighbours form a tree that hangs on the endpoint by one
pylon (`expands_once`); two pylons at one endpoint that overlap are expanded twice (`expands_twice`).
-/

namespace Circuit.Spec.EnergyLinks

open Framework Impl.EnergyGrid List
open Impl.TerrainManager (AIFloat3)

variable {ι : Type*} {it : SetOrder} {l : CEnergyLink ι}

theorem graph_adj (hsymm : ∀ r q, Known l r → q ∈ (l.memory r).neighbors → Known l q ∧ r ∈ (l.memory q).neighbors)
    {r : Ref} (hr : Known l r) (q : Ref) : (graph l).Adj r q ↔ r ≠ q ∧ q ∈ it.order (l.memory r).neighbors := by
  rw [graph, SimpleGraph.fromRel_adj, it.mem_order]
  refine and_congr_right fun _ => ⟨?_, fun h => .inl ⟨hr, h⟩⟩
  rintro (h | h)
  · exact h.2
  · exact (hsymm q r h.1 h.2).2

/-- A search from an endpoint expands no pylon twice if the neighbours form a tree there. If it goes on to the end of the
queue, it does so only if they do; the pylons that are reached are then all expanded, and the result is computed from
them. -/
theorem expands_once (hset : ∀ r, (it.order (l.memory r).neighbors).Nodup)
    (hsymm : ∀ r q, Known l r → q ∈ (l.memory r).neighbors → Known l q ∧ r ∈ (l.memory q).neighbors) (i : Bool)
    (stop : Ref → Bool) (fuel : ℕ) : (TreeFrom l i → (expanded l it i stop fuel).Nodup) ∧
      ∀ distance2D p1 best, l.searchFrom distance2D it fuel i stop p1 = some (some best) →
        ((expanded l it i stop fuel).Nodup ↔ TreeFrom l i) ∧
          best = (expanded l it i stop fuel).foldl (CEnergyLink.nearer distance2D l.memory p1) none ∧
            ∀ r, ReachesFrom l it i r → r ∈ expanded l it i stop fuel := by
  have hknown : ∀ r, Known l r → ∀ q ∈ it.order (l.memory r).neighbors, Known l q :=
    fun r hr q hq => (hsymm r q hr (it.mem_order.mp hq)).1
  have hadj : ∀ r, Known l r → ∀ q, (graph l).Adj r q ↔ r ≠ q ∧ q ∈ it.order (l.memory r).neighbors :=
    fun r => graph_adj hsymm
  have hv : Known l (.vertex i) := trivial
  have htree : TreeFrom l i → (expanded l it i stop fuel).Nodup := fun h =>
    nodup_taken hknown hadj hv hset
      (fun r hr q hq => h.single r (it.mem_order.mp hr) q (it.mem_order.mp hq)) h.acyclic
  refine ⟨htree, fun distance2D p1 best hr => ⟨⟨fun h => ⟨fun r hr' q hq => ?_, fun r => ?_⟩, htree⟩, ?_, ?_⟩⟩
  · exact single_of_nodup_taken hknown hadj hv hr h r (it.mem_order.mpr hr') q (it.mem_order.mpr hq)
  · exact acyclic_of_nodup_taken hknown hadj hv hr h
  · exact (search_taken .init hr).1
  · exact fun r => mem_taken hr

def linkWith (positions : List AIFloat3) : CEnergyLink AIFloat3 :=
  positions.foldl (fun l pos => l.addPylon pos pos 2) (.new (fun _ _ => 100) 0 ⟨0, 0, 0⟩ 1 ⟨100, 0, 0⟩)

theorem graph_linkWith (positions : List AIFloat3) : Graph (linkWith positions) :=
  foldlRecOn positions _ (graph_new ..) fun _ h _ _ => graph_addPylon h

/-- A chain of three pylons, and the search over them to its end. -/
theorem expands_once_chain : let it : SetOrder := ⟨dedup, mem_dedup⟩
    let l := linkWith [⟨1, 0, 0⟩, ⟨4, 0, 0⟩, ⟨7, 0, 0⟩]
    expanded l it false (· = .vertex true) 6 = [.pylon 0, .pylon 1, .vertex false, .pylon 2] ∧ TreeFrom l false := by
  intro it l
  have hexp : expanded l it false (· = .vertex true) 6 = [.pylon 0, .pylon 1, .vertex false, .pylon 2] := by
    decide +kernel
  have hend : l.searchFrom (fun _ _ => 100) it 6 false (· = .vertex true) ⟨100, 0, 0⟩ =
      some (some (some (98, .pylon 0))) := by decide +kernel
  have hset (r : Ref) : (it.order (l.memory r).neighbors).Nodup := nodup_dedup _
  have honce := expands_once hset (fun _ _ => (graph_linkWith _).symm) false (· = .vertex true) 6
  exact ⟨hexp, (honce.2 _ _ _ hend).1.mp (hexp ▸ by decide)⟩

/-- Two pylons that overlap at one endpoint are neighbours of each other. -/
theorem expands_twice : let it : SetOrder := ⟨dedup, mem_dedup⟩
    let l := linkWith [⟨1, 0, 0⟩, ⟨-1, 0, 0⟩]
    expanded l it l.source (· = .vertex l.target) 6 = [.pylon 1, .pylon 0, .vertex false, .pylon 0, .vertex false] ∧
      l.searchFrom (fun _ _ => 100) it 6 l.source (· = .vertex l.target) ⟨100, 0, 0⟩ =
        some (some (some (98, .pylon 1))) := by
  decide +kernel

end Circuit.Spec.EnergyLinks

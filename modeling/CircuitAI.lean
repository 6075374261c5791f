import CircuitAI.Proof.MicroPather.Result
import CircuitAI.Proof.MicroPather.History
import CircuitAI.Proof.BlockingMap.Cancel
import CircuitAI.Proof.BlockingMap.Answers
import CircuitAI.Proof.BlockingMap.Low
import CircuitAI.Proof.AreaUpdate.Handshake
import CircuitAI.Proof.AreaUpdate.Progress
import CircuitAI.Proof.Scheduler.Quiet
import CircuitAI.Proof.Enemies.Lifecycle
import CircuitAI.Proof.Enemies.Garbage
import CircuitAI.Proof.Enemies.Classes
import CircuitAI.Proof.Enemies.Costs
import CircuitAI.Proof.AllyTeam.Authority
import CircuitAI.Proof.EnemyGroups.Rounds
import CircuitAI.Proof.BuilderTask.Reservations
import CircuitAI.Proof.EnergyGrid.Links
import CircuitAI.Proof.EnergyGrid.Expansions
import CircuitAI.Proof.MetalData.Triangulation
import CircuitAI.Proof.Workers.Areas
import CircuitAI.Proof.Workers.BuildLists
import CircuitAI.Proof.FactoryManager.Power
import CircuitAI.Proof.MexTask.Reservations
import CircuitAI.Proof.InfluenceMap.Rounds
import CircuitAI.Proof.ThreatMap.Layers
import CircuitAI.Proof.SquadTask.Bookkeeping
import CircuitAI.Proof.TerrainData.Buffers
import CircuitAI.Proof.TerrainData.Elevations
import CircuitAI.Proof.TerrainData.Usability
import CircuitAI.Proof.SectorQuery.BuildSectors
import CircuitAI.Proof.BlockingMap.NearestSite
import CircuitAI.Proof.UnitTasks.Runs
import CircuitAI.Proof.BlockingMap.CoarseOffsets
import CircuitAI.Proof.BlockingMap.Masks
import CircuitAI.Proof.BlockingMap.AllyMarks
import CircuitAI.Proof.MetalManager
import CircuitAI.Proof.MicroPather.Lines
import CircuitAI.Proof.MicroPather.CostLookups
import CircuitAI.Proof.MicroPather.EndRings
import CircuitAI.Proof.HierarchCluster
import CircuitAI.Proof.EnemyGroups.KMeans
import CircuitAI.Proof.EncloseCircle
import CircuitAI.Proof.Scheduler.OnTime
import CircuitAI.Proof.Scheduler.Removal
import CircuitAI.Proof.FighterTarget
import CircuitAI.Proof.BuilderTask.RoundRobin
import CircuitAI.Proof.MicroPather.OpenQueue

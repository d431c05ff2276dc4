import EntityWorld.Journal.Operations
import EntityWorld.Main
import EntityWorld.Script.Invoke
import EntityWorld.Zoo
import EntityWorld.Proofs.Key
import EntityWorld.Proofs.Row
import EntityWorld.Proofs.Store.Call
import EntityWorld.Proofs.Store.Sound
import EntityWorld.Proofs.Store.Restore
import EntityWorld.Proofs.Store.Reachable
import EntityWorld.Proofs.Store.Listing
import EntityWorld.Proofs.Store.Placement
import EntityWorld.Proofs.World.Call
import EntityWorld.Proofs.Update.Frame
import EntityWorld.Proofs.World.Reached
import EntityWorld.Proofs.World.Failure
import EntityWorld.Proofs.Binary
import EntityWorld.Proofs.Field
import EntityWorld.Proofs.Store.Names
import EntityWorld.Proofs.Store.RoundTrip
import EntityWorld.Proofs.Plan
import EntityWorld.Proofs.Update.Agreement
import EntityWorld.Proofs.Update.Scan
import EntityWorld.Proofs.World.Scan
import EntityWorld.Proofs.Overwrite
import EntityWorld.Proofs.Store.SetBack
import EntityWorld.Proofs.EntitySet
import EntityWorld.Proofs.Update.Path
import EntityWorld.Proofs.Update.Rulings
import EntityWorld.Proofs.Update.Sides
import EntityWorld.Proofs.Update.Passes
import EntityWorld.Proofs.World.Activity
import EntityWorld.Proofs.World.Passes
import EntityWorld.Proofs.Update.Effects
import EntityWorld.Proofs.Update.Pardon
import EntityWorld.Proofs.World.Breakdown
import EntityWorld.Proofs.Update.PassBy
import EntityWorld.Proofs.World.PassBy
import EntityWorld.Proofs.Store.Living
import EntityWorld.Proofs.Update.Living
import EntityWorld.Proofs.World.Standing
import EntityWorld.Proofs.Plan.Dependencies
import EntityWorld.Proofs.Update.Turns
import EntityWorld.Proofs.World.Dependencies
import EntityWorld.Proofs.Store.Twin
import EntityWorld.Proofs.World.Seeding
import EntityWorld.Proofs.Store.Numbers
import EntityWorld.Proofs.Store.Lookup
import EntityWorld.Proofs.Update.Writes
import EntityWorld.Proofs.World.Frame
import EntityWorld.Proofs.Plan.Counters
import EntityWorld.Proofs.Plan.Least
import EntityWorld.Proofs.EntitySet.Calls
import EntityWorld.Proofs.Plan.Cycles
import EntityWorld.Proofs.Subsets.Draws
import EntityWorld.Proofs.Subsets.Positions
import EntityWorld.Proofs.Field.Conformance
import EntityWorld.Proofs.Utf8
import EntityWorld.Proofs.Store.Permutation
import EntityWorld.Proofs.Store.Deeds
import EntityWorld.Proofs.Update.Deeds
import EntityWorld.Proofs.World.Histories
import EntityWorld.Proofs.World.Idempotence
import EntityWorld.Proofs.Murmur
import EntityWorld.Proofs.Murmur.Separation
import EntityWorld.Proofs.Murmur.Reference
import EntityWorld.Proofs.Signature.Validation
import EntityWorld.Proofs.Update.Binding
import EntityWorld.Proofs.Key.Parity
import EntityWorld.Proofs.EntitySet.Vacancies
import EntityWorld.Proofs.World.Vacancies
import EntityWorld.Proofs.Component.Accessors
import EntityWorld.Proofs.Update.Descent
import EntityWorld.Proofs.World.Descent

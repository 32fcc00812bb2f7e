import RoutePolicy.Main
import RoutePolicy.Proofs.CommandLine.Arguments
import RoutePolicy.Proofs.FileTree.Change
import RoutePolicy.Proofs.FileTree.Entries
import RoutePolicy.Proofs.FileTree.Path
import RoutePolicy.Proofs.FileTree.Walk
import RoutePolicy.Proofs.Generate
import RoutePolicy.Proofs.Policy.Access
import RoutePolicy.Proofs.Policy.Canonical
import RoutePolicy.Proofs.Policy.Document
import RoutePolicy.Proofs.Policy.Faults
import RoutePolicy.Proofs.Policy.GroupBy
import RoutePolicy.Proofs.Policy.Growth
import RoutePolicy.Proofs.Policy.Incremental
import RoutePolicy.Proofs.Policy.Quiet
import RoutePolicy.Proofs.Policy.Reordered
import RoutePolicy.Proofs.Policy.Shape
import RoutePolicy.Proofs.Policy.Store
import RoutePolicy.Proofs.Route.Batch
import RoutePolicy.Proofs.Route.Fragments
import RoutePolicy.Proofs.Route.Grammar
import RoutePolicy.Proofs.Route.Parameters
import RoutePolicy.Proofs.Route.Shape
import RoutePolicy.Proofs.Route.Wildcards
import RoutePolicy.Proofs.Settings.Extensions
import RoutePolicy.Proofs.Settings.Resolve
import RoutePolicy.Proofs.Source.Annotations
import RoutePolicy.Proofs.Source.Flat
import RoutePolicy.Proofs.Source.RoleLines
import RoutePolicy.Proofs.Source.Spacing
import RoutePolicy.Proofs.Source.Tag
import RoutePolicy.Proofs.Source.Tree
import RoutePolicy.Proofs.Source.Words
import RoutePolicy.Proofs.Text.ByteOrder

import BuildGraph.Main
import BuildGraph.Proofs.Graph.Resolution
import BuildGraph.Proofs.Graph.Gathering
import BuildGraph.Proofs.Graph.Built
import BuildGraph.Proofs.Graph.Closure
import BuildGraph.Proofs.Graph.Search
import BuildGraph.Proofs.Graph.Acyclicity
import BuildGraph.Proofs.Graph.Strictness
import BuildGraph.Proofs.CMake.LinkNames
import BuildGraph.Proofs.Graph.Entries
import BuildGraph.Proofs.Outline.Forest
import BuildGraph.Proofs.Graph.Toolchain
import BuildGraph.Proofs.Graph.Embedding
import BuildGraph.Proofs.Outline.Walk
import BuildGraph.Proofs.Outline.Expansion
import BuildGraph.Proofs.Text.Lines
import BuildGraph.Proofs.Outline.Cycles
import BuildGraph.Proofs.Exclusion
import BuildGraph.Proofs.Graph.Ownership
import BuildGraph.Proofs.Graph.Rearrangement
import BuildGraph.Proofs.Text.OneLine
import BuildGraph.Proofs.CMake.Blocks
import BuildGraph.Proofs.CMake.Lines
import BuildGraph.Proofs.CMake.Reading
import BuildGraph.Proofs.CMake.Properties
import BuildGraph.Proofs.CMake.Declarations
import BuildGraph.Proofs.CMake.LinkCycles
import BuildGraph.Proofs.Descriptor.Instantiation
import BuildGraph.Proofs.Graph.Narrowing
import BuildGraph.Proofs.Editor
import BuildGraph.Proofs.Libraries
import BuildGraph.Proofs.FileTree.Growth
import BuildGraph.Proofs.FileTree.Directories
import BuildGraph.Proofs.CMake.Links
import BuildGraph.Proofs.FileTree.Steps
import BuildGraph.Proofs.CMake.LinkTargets
import BuildGraph.Proofs.Workspace.Schedules
import BuildGraph.Proofs.CommandLine.Failure
import BuildGraph.Proofs.CommandLine.Schedules
import BuildGraph.Proofs.CommandLine.Rehearsal
import BuildGraph.Proofs.CommandLine.Confinement
import BuildGraph.Proofs.CMake.Paragraphs
import BuildGraph.Proofs.Descriptor.Platforms
import BuildGraph.Proofs.CMake.Copies
import BuildGraph.Proofs.FileTree.Walks
import BuildGraph.Proofs.Workspace.Sources
import BuildGraph.Proofs.Workspace.Rereading
import BuildGraph.Proofs.CommandLine.Repetition
import BuildGraph.Proofs.Workspace.Relocation
import BuildGraph.Proofs.Toml.Distinct
import BuildGraph.Proofs.Descriptor.Keys
import BuildGraph.Proofs.Descriptor.Agreement
import BuildGraph.Proofs.Descriptor.Orders
import BuildGraph.Proofs.Descriptor.Reordering
import BuildGraph.Proofs.Graph.Naming
import BuildGraph.Proofs.CMake.Folders
import BuildGraph.Proofs.Qualifiers
import BuildGraph.Proofs.Graph.Outcomes
import BuildGraph.Proofs.Graph.Rounds
import BuildGraph.Proofs.CMake.CopyLines
import BuildGraph.Proofs.Descriptor.Contents
import BuildGraph.Proofs.FileTree.Grounded
import BuildGraph.Proofs.Workspace.Descriptors
import BuildGraph.Proofs.Workspace.Collection
import BuildGraph.Proofs.CMake.SourceLists
import BuildGraph.Proofs.Outline.Repeats
import BuildGraph.Proofs.Graph.Selection
import BuildGraph.Proofs.CMake.FolderPlaces
import BuildGraph.Proofs.CMake.LinkCounts
import BuildGraph.Proofs.Graph.Warnings
import BuildGraph.Proofs.Text.Visible
import BuildGraph.Proofs.Table.Widths
import BuildGraph.Proofs.Table.Cells
import BuildGraph.Proofs.Table.Lines

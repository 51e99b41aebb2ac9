import ControlPlane.Allocation.ForPort
import ControlPlane.Allocation.Ranges
import ControlPlane.Allocation.Single
import ControlPlane.Binding
import ControlPlane.Binding.Commit
import ControlPlane.Binding.Completion
import ControlPlane.Command
import ControlPlane.Config
import ControlPlane.Environment
import ControlPlane.Error
import ControlPlane.Ident
import ControlPlane.Interleaving
import ControlPlane.Ip.Address
import ControlPlane.Ip.Cidr
import ControlPlane.Ip.FreeRuns
import ControlPlane.Ip.HostRange
import ControlPlane.Ip.Notation
import ControlPlane.Json.Decode
import ControlPlane.Json.Document
import ControlPlane.Json.Double
import ControlPlane.Json.Reader
import ControlPlane.Json.Value
import ControlPlane.Json.Writer
import ControlPlane.Lock
import ControlPlane.Mac
import ControlPlane.Network
import ControlPlane.Network.Lifecycle
import ControlPlane.Port
import ControlPlane.Port.Access
import ControlPlane.Port.Agent
import ControlPlane.Port.Create
import ControlPlane.Port.Update
import ControlPlane.Program
import ControlPlane.Proofs.Alone
import ControlPlane.Proofs.Alone.Addresses
import ControlPlane.Proofs.Alone.Bindings
import ControlPlane.Proofs.Alone.Deletions
import ControlPlane.Proofs.Alone.Discreet
import ControlPlane.Proofs.Alone.Generation
import ControlPlane.Proofs.Alone.Orders
import ControlPlane.Proofs.Alone.Refits
import ControlPlane.Proofs.Alone.Requests
import ControlPlane.Proofs.Alone.Stored
import ControlPlane.Proofs.Calls
import ControlPlane.Proofs.Commands
import ControlPlane.Proofs.Commands.Addresses
import ControlPlane.Proofs.Commands.Ports
import ControlPlane.Proofs.Duties
import ControlPlane.Proofs.Duties.Addresses
import ControlPlane.Proofs.Duties.Commands
import ControlPlane.Proofs.Duties.Ports
import ControlPlane.Proofs.Effects
import ControlPlane.Proofs.Environment
import ControlPlane.Proofs.Errors
import ControlPlane.Proofs.Failures
import ControlPlane.Proofs.Failures.Commands
import ControlPlane.Proofs.Failures.Ports
import ControlPlane.Proofs.Faithful
import ControlPlane.Proofs.History
import ControlPlane.Proofs.Interference
import ControlPlane.Proofs.Ip.Blocks
import ControlPlane.Proofs.Ip.FreeRuns
import ControlPlane.Proofs.Ip.HostRange
import ControlPlane.Proofs.Ip.Notation
import ControlPlane.Proofs.Ip.Spans
import ControlPlane.Proofs.Ip.Words
import ControlPlane.Proofs.Json.Members
import ControlPlane.Proofs.Json.Texts
import ControlPlane.Proofs.Json.Tokens
import ControlPlane.Proofs.Ledgers
import ControlPlane.Proofs.Locks
import ControlPlane.Proofs.Locks.Courses
import ControlPlane.Proofs.Locks.Users
import ControlPlane.Proofs.Macs
import ControlPlane.Proofs.Macs.Canonical
import ControlPlane.Proofs.Macs.Grammar
import ControlPlane.Proofs.Networks
import ControlPlane.Proofs.Obliging
import ControlPlane.Proofs.Operations
import ControlPlane.Proofs.Orphans
import ControlPlane.Proofs.Plays
import ControlPlane.Proofs.Ports.Agents
import ControlPlane.Proofs.Ports.Attempts
import ControlPlane.Proofs.Ports.Bound
import ControlPlane.Proofs.Ports.Commits
import ControlPlane.Proofs.Ports.Creation
import ControlPlane.Proofs.Ports.Entries
import ControlPlane.Proofs.Ports.Exhaustion
import ControlPlane.Proofs.Ports.HostBinding
import ControlPlane.Proofs.Ports.Hosts
import ControlPlane.Proofs.Ports.Inputs
import ControlPlane.Proofs.Ports.Outcomes
import ControlPlane.Proofs.Ports.Reachable
import ControlPlane.Proofs.Ports.Retained
import ControlPlane.Proofs.Ports.Rounds
import ControlPlane.Proofs.Ports.Rows
import ControlPlane.Proofs.Ports.Saving
import ControlPlane.Proofs.Ports.Shape
import ControlPlane.Proofs.Ports.Sites
import ControlPlane.Proofs.Ports.Stages
import ControlPlane.Proofs.Ports.Transactions
import ControlPlane.Proofs.Ports.Uniqueness
import ControlPlane.Proofs.Ports.Updates
import ControlPlane.Proofs.Ports.Upkeep
import ControlPlane.Proofs.Ports.Writers
import ControlPlane.Proofs.Ranges.Allocations
import ControlPlane.Proofs.Ranges.Exchange
import ControlPlane.Proofs.Ranges.Families
import ControlPlane.Proofs.Ranges.Frames
import ControlPlane.Proofs.Ranges.Generated
import ControlPlane.Proofs.Ranges.Generation
import ControlPlane.Proofs.Ranges.Hidden
import ControlPlane.Proofs.Ranges.Holders
import ControlPlane.Proofs.Ranges.Inverse
import ControlPlane.Proofs.Ranges.Known
import ControlPlane.Proofs.Ranges.Layout
import ControlPlane.Proofs.Ranges.Lifecycle
import ControlPlane.Proofs.Ranges.Local
import ControlPlane.Proofs.Ranges.Placed
import ControlPlane.Proofs.Ranges.Pools
import ControlPlane.Proofs.Ranges.Reachable
import ControlPlane.Proofs.Ranges.Rebuild
import ControlPlane.Proofs.Ranges.Reclaim
import ControlPlane.Proofs.Ranges.Referential
import ControlPlane.Proofs.Ranges.Repair
import ControlPlane.Proofs.Ranges.Sound
import ControlPlane.Proofs.Ranges.Take
import ControlPlane.Proofs.Ranges.Tidy
import ControlPlane.Proofs.Ranges.Transactions
import ControlPlane.Proofs.Releases
import ControlPlane.Proofs.Replacements
import ControlPlane.Proofs.Replies
import ControlPlane.Proofs.Reports
import ControlPlane.Proofs.Requests
import ControlPlane.Proofs.Runs
import ControlPlane.Proofs.Schedules
import ControlPlane.Proofs.Sessions
import ControlPlane.Proofs.Supply
import ControlPlane.Proofs.Text.Numerals
import ControlPlane.Proofs.Text.Pieces
import ControlPlane.Proofs.Traces
import ControlPlane.Proofs.Transaction
import ControlPlane.Proofs.Wire.Bindings
import ControlPlane.Proofs.Wire.Fields
import ControlPlane.Proofs.Wire.Updates
import ControlPlane.Request
import ControlPlane.Setup
import ControlPlane.Simulation.Action
import ControlPlane.Simulation.Names
import ControlPlane.Simulation.Run
import ControlPlane.Simulation.Script
import ControlPlane.Simulation.Watch
import ControlPlane.Sort
import ControlPlane.Store.Ipam
import ControlPlane.Store.Operation
import ControlPlane.Store.Ports
import ControlPlane.Store.Session
import ControlPlane.Store.Transaction
import ControlPlane.Subnet
import ControlPlane.Subnet.Layout
import ControlPlane.Subnet.Lifecycle
import ControlPlane.Table
import ControlPlane.Text.Blank
import ControlPlane.Text.Capital
import ControlPlane.Text.Digits
import ControlPlane.Text.Rename
import ControlPlane.Timestamp
import ControlPlane.Wire.Basic
import ControlPlane.Wire.Context
import ControlPlane.Wire.Network
import ControlPlane.Wire.Port
import ControlPlane.Wire.Request
import ControlPlane.Wire.Subnet

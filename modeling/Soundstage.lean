import Soundstage.Id
import Soundstage.Spatial
import Soundstage.Voice
import Soundstage.DecodeMode
import Soundstage.Table
import Soundstage.NameMap
import Soundstage.Number.Fixed
import Soundstage.Number.Literal
import Soundstage.Text.Blank
import Soundstage.Text.Order
import Soundstage.Path
import Soundstage.Journal
import Soundstage.Disk
import Soundstage.Error
import Soundstage.Loader.Scripted
import Soundstage.Loader.Streaming
import Soundstage.Bridge
import Soundstage.Json.Decode
import Soundstage.Engine.Scripted
import Soundstage.Engine.Mixing
import Soundstage.Audition
import Soundstage.Config.Load
import Soundstage.CommandLine.Session
import Soundstage.Main
import Soundstage.Proofs.Bridge.Custody
import Soundstage.Proofs.Engine.Scripted
import Soundstage.Proofs.Engine.Mixing
import Soundstage.Proofs.System.Coherence
import Soundstage.Proofs.System.Conduct
import Soundstage.Proofs.Bridge.Traces
import Soundstage.Proofs.Bridge.Traffic
import Soundstage.Proofs.System.Agreement
import Soundstage.Proofs.System.Bindings
import Soundstage.Proofs.System.Tables
import Soundstage.Proofs.System.Isolation
import Soundstage.Proofs.Bridge.Careers
import Soundstage.Proofs.System.Music
import Soundstage.Proofs.System.Aftermath
import Soundstage.Proofs.System.Memory
import Soundstage.Proofs.System.Ownership
import Soundstage.Proofs.Bridge.Refusals
import Soundstage.Proofs.CommandLine.Outcomes
import Soundstage.Proofs.System.Frames
import Soundstage.Proofs.System.Stops
import Soundstage.Proofs.System.Waiting
import Soundstage.Proofs.Disk.Spellings
import Soundstage.Proofs.Engine.FileCache
import Soundstage.Proofs.CommandLine.Templates
import Soundstage.Proofs.Engine.Attempts
import Soundstage.Proofs.System.Admissions
import Soundstage.Proofs.System.Sweeps
import Soundstage.Proofs.Disk.FileTree
import Soundstage.Proofs.Config.Relocation
import Soundstage.Proofs.Loader.Streams
import Soundstage.Proofs.Engine.Levels

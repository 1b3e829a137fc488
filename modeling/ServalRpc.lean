import ServalRpc.CLib.Memory
import ServalRpc.CLib.CString
import ServalRpc.CLib.Strtok
import ServalRpc.CLib.Run
import ServalRpc.CLib.SlotTable
import ServalRpc.CLib.Shell
import ServalRpc.CLib.AttemptLog
import ServalRpc.CLib.Journal
import ServalRpc.CLib.Atoi
import ServalRpc.CLib.Reader
import ServalRpc.CLib.Heap
import ServalRpc.CLib.JsonFormat
import ServalRpc.CLib.Writes
import ServalRpc.CLib.Walk
import ServalRpc.CLib.Network
import ServalRpc.Model.Serval
import ServalRpc.Model.Requirements
import ServalRpc.Model.Call
import ServalRpc.Model.Offering
import ServalRpc.Model.Store
import ServalRpc.Model.Daemon
import ServalRpc.Model.Execute
import ServalRpc.Model.Server
import ServalRpc.Model.Upload
import ServalRpc.Model.FileStore
import ServalRpc.Model.Listen
import ServalRpc.Model.Client
import ServalRpc.Model.Polling
import ServalRpc.Model.ClientCalls
import ServalRpc.Model.Main
import ServalRpc.Model.Reachable
import ServalRpc.Model.CurlMemory
import ServalRpc.Model.Manifest
import ServalRpc.Model.DownloadBuffers
import ServalRpc.Model.ExecuteBuffers
import ServalRpc.Model.JsonParser
import ServalRpc.Model.Listing
import ServalRpc.Model.MdpSystem
import ServalRpc.Model.RhizomeSystem
import ServalRpc.Model.ServerProcess
import ServalRpc.Verified.RequirementsRoundTrip
import ServalRpc.Verified.ParseCall
import ServalRpc.Verified.CallBooks
import ServalRpc.Verified.CallCodec
import ServalRpc.Verified.Offering
import ServalRpc.Verified.Download
import ServalRpc.Verified.ProcessStart
import ServalRpc.Verified.Representation
import ServalRpc.Verified.PacketBounds
import ServalRpc.Verified.ServerRuns
import ServalRpc.Verified.HandlerSteps
import ServalRpc.Verified.CommandLine
import ServalRpc.Verified.Delivery
import ServalRpc.Verified.ResultManifest
import ServalRpc.Verified.Upload
import ServalRpc.Verified.DoneCalls
import ServalRpc.Verified.ListenerSteps
import ServalRpc.Verified.ClientTable
import ServalRpc.Verified.ResultSlots
import ServalRpc.Verified.AnswerLedger
import ServalRpc.Verified.ListenerRounds
import ServalRpc.Verified.ReturnCodes
import ServalRpc.Verified.Polling
import ServalRpc.Verified.LateAnswers
import ServalRpc.Verified.Addressee
import ServalRpc.Verified.Independence
import ServalRpc.Verified.MspSteps
import ServalRpc.Verified.PlainAnswers
import ServalRpc.Verified.ResultFidelity
import ServalRpc.Verified.CopyBounds
import ServalRpc.Verified.CallSize
import ServalRpc.Verified.HandlerAgreement
import ServalRpc.Verified.FirstAnswer
import ServalRpc.Verified.OwnSlot
import ServalRpc.Verified.EarlyEnd
import ServalRpc.Verified.MspFinality
import ServalRpc.Verified.MspFallback
import ServalRpc.Verified.PlainStrings
import ServalRpc.Verified.Reachability
import ServalRpc.Verified.RequirementLists
import ServalRpc.Verified.ClientInvocation
import ServalRpc.Verified.MspConsumption
import ServalRpc.Verified.PublishedPackets
import ServalRpc.Verified.Freshness
import ServalRpc.Verified.FileReplies
import ServalRpc.Verified.ProcessOutput
import ServalRpc.Verified.CurlMemory
import ServalRpc.Verified.Manifests
import ServalRpc.Verified.DownloadBounds
import ServalRpc.Verified.ExecutionBounds
import ServalRpc.Verified.Listings
import ServalRpc.Verified.JsonStrings
import ServalRpc.Verified.JsonNumbers
import ServalRpc.Verified.JsonGrammar
import ServalRpc.Verified.JsonMemory
import ServalRpc.Verified.JsonListings
import ServalRpc.Verified.SlotOrigins
import ServalRpc.Verified.MdpProvenance
import ServalRpc.Verified.MdpCompletion
import ServalRpc.Verified.MdpAgreement
import ServalRpc.Verified.MdpExecutions
import ServalRpc.Verified.RhizomeBundles
import ServalRpc.Verified.RhizomeProvenance
import ServalRpc.Verified.RhizomeCompletion
import ServalRpc.Verified.RhizomeAgreement
import ServalRpc.Verified.ProcessSockets
import ServalRpc.Verified.ProcessRuns

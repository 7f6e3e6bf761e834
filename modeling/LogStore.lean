import LogStore.Log.Directory
import LogStore.Main
import LogStore.Proofs.Engine.Agreement
import LogStore.Proofs.Engine.Concatenation
import LogStore.Proofs.Engine.Effects
import LogStore.Proofs.Engine.EitherForm
import LogStore.Proofs.Engine.History
import LogStore.Proofs.Engine.LastWrite
import LogStore.Proofs.Engine.TornLog
import LogStore.Proofs.Keyspace.Changes
import LogStore.Proofs.Log.Syncing
import LogStore.Proofs.Reply.PrefixCode
import LogStore.Proofs.Request.BoundedReads
import LogStore.Proofs.Request.Conservation
import LogStore.Proofs.Request.Encoding
import LogStore.Proofs.Request.Grammar
import LogStore.Proofs.Request.Stability
import LogStore.Proofs.Request.Standstill
import LogStore.Proofs.Session.Acknowledgement
import LogStore.Proofs.Session.Framing
import LogStore.Proofs.Session.Interleaving
import LogStore.Proofs.Session.Readback
import LogStore.Proofs.Vocabulary.Resolution

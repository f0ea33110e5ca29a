import ScriptBridge.Value.HostFunction
import ScriptBridge.Dynamic.Document
import ScriptBridge.Encoding.Open
import ScriptBridge.Decoding.Typed
import ScriptBridge.Binding.Arguments
import ScriptBridge.Binding.Keywords
import ScriptBridge.Proofs.Assoc
import ScriptBridge.Proofs.Equivalence
import ScriptBridge.Proofs.Encoding.Strict
import ScriptBridge.Proofs.Encoding.Open
import ScriptBridge.Proofs.Encoding.Reordering
import ScriptBridge.Proofs.Value.WellFormed
import ScriptBridge.Proofs.Encoding.Agreement
import ScriptBridge.Proofs.Binding.Arguments
import ScriptBridge.Proofs.Binary
import ScriptBridge.Proofs.Host.Order
import ScriptBridge.Proofs.Host.Typing
import ScriptBridge.Proofs.Decoding.Typed
import ScriptBridge.Proofs.RoundTrip
import ScriptBridge.Proofs.Decoding.Dynamic
import ScriptBridge.Proofs.Storing
import ScriptBridge.Proofs.Value.Equality
import ScriptBridge.Proofs.Dynamic.Equality
import ScriptBridge.Proofs.Histories
import ScriptBridge.Proofs.Value.Histories
import ScriptBridge.Proofs.Encoding.WellFormed
import ScriptBridge.Proofs.Decoding.Attributes
import ScriptBridge.Proofs.Decoding.Faithful
import ScriptBridge.Proofs.Reencoding
import ScriptBridge.Proofs.Encoding.DynamicMaps
import ScriptBridge.Proofs.Host.Naming
import ScriptBridge.Proofs.Records
import ScriptBridge.Proofs.Binding.Keywords
import ScriptBridge.Proofs.Parts
import ScriptBridge.Proofs.Encoding.Domain
import ScriptBridge.Proofs.DynamicRoundTrip
import ScriptBridge.Proofs.DocumentRoundTrip
import ScriptBridge.Proofs.Binding.KeywordOutcomes
import ScriptBridge.Proofs.Binding.ArgumentFailures
import ScriptBridge.Proofs.Binding.Agreement
import ScriptBridge.Proofs.Decoding.Location
import ScriptBridge.Proofs.Host.OwnNames
import ScriptBridge.Proofs.Encoding.SetCounting
import ScriptBridge.Proofs.Value.Printed
import ScriptBridge.Proofs.Decoding.Wrapping
import ScriptBridge.Proofs.Integers
import ScriptBridge.Proofs.Dynamic.Entries
import ScriptBridge.Proofs.Dynamic.Documents
import ScriptBridge.Proofs.Decoding.Maps
import ScriptBridge.Proofs.Encoding.Integral

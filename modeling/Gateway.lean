import Gateway.App.Shutdown
import Gateway.Config.Encode
import Gateway.Main
import Gateway.Server.Redirect
import Gateway.Proofs.Http.Fields
import Gateway.Proofs.Cache.Items
import Gateway.Proofs.Cache.Consistency
import Gateway.Proofs.Cache.Calls
import Gateway.Proofs.Cache.Expiry
import Gateway.Proofs.Cache.HashInput
import Gateway.Proofs.Cache.Partition
import Gateway.Proofs.Query.Spelling
import Gateway.Proofs.Query.Canonical
import Gateway.Proofs.Cache.MergedQueries
import Gateway.Proofs.Cache.MessagePack
import Gateway.Proofs.Cache.RoundTrip
import Gateway.Proofs.Cache.Truncation
import Gateway.Proofs.Cache.ValueForms
import Gateway.Proofs.Cache.BlobForms
import Gateway.Proofs.Cache.Decoding
import Gateway.Proofs.Cache.Lifetimes
import Gateway.Proofs.Cache.Replays
import Gateway.Proofs.Cache.VaryNames
import Gateway.Proofs.Cache.DeclaredNames
import Gateway.Proofs.Cache.Lookup
import Gateway.Proofs.Cache.Answers
import Gateway.Proofs.Cache.Confirmation
import Gateway.Proofs.Cache.DroppedStores
import Gateway.Proofs.Cache.Outcomes
import Gateway.Proofs.Cache.Passage
import Gateway.Proofs.Cache.Copying
import Gateway.Proofs.Cache.Handover
import Gateway.Proofs.Cache.Journal
import Gateway.Proofs.Cache.Traffic
import Gateway.Proofs.Cache.Provenance
import Gateway.Proofs.Cache.Steps
import Gateway.Proofs.Cache.Retention
import Gateway.Proofs.Cache.Admission
import Gateway.Proofs.App.Children
import Gateway.Proofs.App.Sections
import Gateway.Proofs.App.Reaping
import Gateway.Proofs.App.Results
import Gateway.Proofs.App.Stopping
import Gateway.Proofs.App.Clocked
import Gateway.Proofs.App.Escalation
import Gateway.Proofs.App.Sessions
import Gateway.Proofs.App.SignalTargets
import Gateway.Proofs.App.CommandPieces
import Gateway.Proofs.App.CommandWords
import Gateway.Proofs.App.QuotedArguments
import Gateway.Proofs.Shell.Time
import Gateway.Proofs.Http.Authority
import Gateway.Proofs.Config.UrlText
import Gateway.Proofs.Config.AuthorityPort
import Gateway.Proofs.Config.TargetPort
import Gateway.Proofs.Config.EmptyCommands
import Gateway.Proofs.Text.Utf8
import Gateway.Proofs.Text.Elements
import Gateway.Proofs.Http.UriParts
import Gateway.Proofs.Http.AbsoluteUri
import Gateway.Proofs.Net.AddressText
import Gateway.Proofs.Proxy.TargetParts
import Gateway.Proofs.Proxy.OutboundUri
import Gateway.Proofs.Proxy.Rewriting
import Gateway.Proofs.Proxy.ForwardedHeaders
import Gateway.Proofs.Proxy.StatedLength
import Gateway.Proofs.Config.TargetUrl
import Gateway.Proofs.Cache.Evictions
import Gateway.Proofs.Cache.Holdings
import Gateway.Proofs.Proxy.PassedHeaders
import Gateway.Proofs.Proxy.TrustedHops
import Gateway.Proofs.Proxy.FileAnswers
import Gateway.Proofs.Server.Runs
import Gateway.Proofs.Server.Revalidation
import Gateway.Proofs.Server.RequestIds
import Gateway.Proofs.Server.Conclusions
import Gateway.Proofs.Server.Failures
import Gateway.Proofs.Cache.Ledger
import Gateway.Proofs.Cache.Sweeps
import Gateway.Proofs.App.Announcements
import Gateway.Proofs.Http.Hosts
import Gateway.Proofs.Server.SecureUrls
import Gateway.Proofs.Cache.Victims
import Gateway.Proofs.Cache.Notes
import Gateway.Proofs.Proxy.EndToEnd

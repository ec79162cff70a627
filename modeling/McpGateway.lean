import McpGateway.Foundation.Transition
import McpGateway.Basic
import McpGateway.Text
import McpGateway.Vault.Model
import McpGateway.Vault.Concurrency
import McpGateway.Foundation.Separator
import McpGateway.Vault.Invariant
import McpGateway.Vault.Stability
import McpGateway.Vault.Workspaces
import McpGateway.Vault.Convergence
import McpGateway.Ingestion.Chunker
import McpGateway.Ingestion.Extract
import McpGateway.Schema
import McpGateway.Ingestion.RunCycle
import McpGateway.Ingestion.Rows
import McpGateway.Ingestion.NoLoss
import McpGateway.Ingestion.Mirror
import McpGateway.Foundation.Act
import McpGateway.Foundation.Transaction
import McpGateway.Gateway.Types
import McpGateway.Gateway.Database
import McpGateway.Foundation.Regex
import McpGateway.Gateway.Session
import McpGateway.Gateway.Aspects
import McpGateway.Gateway.Observation
import McpGateway.Gateway.Effects
import McpGateway.Gateway.Isolation
import McpGateway.Foundation.Keyed
import McpGateway.Gateway.Confidential
import McpGateway.Gateway.Pending
import McpGateway.Gateway.Audit
import McpGateway.Foundation.Symbolic
import McpGateway.OAuth.Tokens
import McpGateway.OAuth.AuthCodeStore
import McpGateway.OAuth.Controller
import McpGateway.OAuth.Attacker
import McpGateway.OAuth.Pkce
import McpGateway.OAuth.Exchange
import McpGateway.OAuth.Recovery
import McpGateway.Foundation.Substring
import McpGateway.Gateway.JavaText
import McpGateway.OAuth.Jwt
import McpGateway.Keys.ApiKeys
import McpGateway.Keys.Sweep
import McpGateway.Keys.Routes
import McpGateway.Rotation.Crypto
import McpGateway.Rotation.Run
import McpGateway.Rotation.Scan
import McpGateway.Rotation.Restart
import McpGateway.Rotation.Interleaving
import McpGateway.Rotation.Maintenance
import McpGateway.Foundation.Find
import McpGateway.Sanitize.Scan
import McpGateway.Gateway.HourlyCap
import McpGateway.Gateway.RateLimit
import McpGateway.Zoho.TokenCache
import McpGateway.Foundation.Worklist
import McpGateway.Zoho.ListChanges
import McpGateway.Foundation.Json
import McpGateway.Zoho.CursorJson
import McpGateway.Zoho.Crawl
import McpGateway.Zoho.Watermark
import McpGateway.Zoho.Wedge
import McpGateway.Zoho.Incremental
import McpGateway.Ingestion.Namespaces
import McpGateway.Gateway.ContentEncryptor
import McpGateway.Rotation.WireFormat
import McpGateway.Gateway.Stripped
import McpGateway.Gateway.Base64Blob
import McpGateway.Sanitize.Substitute
import McpGateway.Sanitize.Exact
import McpGateway.Sanitize.Rescan
import McpGateway.Sanitize.Shadowed
import McpGateway.Gateway.Counted
import McpGateway.Gateway.SlidingWindow
import McpGateway.Gateway.TrustFrame
import McpGateway.Zoho.Download
import McpGateway.Foundation.Orbit
import McpGateway.Zoho.PageLoop
import McpGateway.OAuth.Uri
import McpGateway.OAuth.FormEncoding
import McpGateway.OAuth.Redirect
import McpGateway.Ingestion.Windows
import McpGateway.Ingestion.Aligned
import McpGateway.Sanitize.Iban
import McpGateway.Foundation.Segments
import McpGateway.Sanitize.Ner
import McpGateway.Gateway.Fragment
import McpGateway.OAuth.Html
import McpGateway.Foundation.Words
import McpGateway.Vault.Canonical
import McpGateway.Foundation.Decimal
import McpGateway.Zoho.Timestamps
import McpGateway.Gateway.PostgresQuery
import McpGateway.Gateway.HiddenColumns
import McpGateway.Graph.Drive
import McpGateway.Deployment.Provenance
import McpGateway.Http.Trail
import McpGateway.Deployment.KeyChange
import McpGateway.Foundation.History
import McpGateway.Http.Mediation
import McpGateway.Foundation.Selection
import McpGateway.Gateway.Meaning
import McpGateway.Gateway.Answered
import McpGateway.OAuth.Address
import McpGateway.Foundation.WriteLog
import McpGateway.Deployment.Versions
import McpGateway.Zoho.Workdrive
import McpGateway.Sanitize.Pseudonyms

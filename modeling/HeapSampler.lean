import HeapSampler.Decimal.Layout
import HeapSampler.Text.Quoted
import HeapSampler.Locations.Table
import HeapSampler.Settings.Basic
import HeapSampler.Json.Reader
import HeapSampler.Json.Document
import HeapSampler.Settings.Text
import HeapSampler.Strings.Table
import HeapSampler.Sample.Records
import HeapSampler.Profile.Builder
import HeapSampler.Fork.Registry
import HeapSampler.Collector.Basic
import HeapSampler.Bench.Library
import HeapSampler.Bench.Collector
import HeapSampler.Proofs.Containers
import HeapSampler.Proofs.Run
import HeapSampler.Proofs.Steps
import HeapSampler.Proofs.Ownership
import HeapSampler.Proofs.Frame
import HeapSampler.Proofs.Pending
import HeapSampler.Proofs.Accounting
import HeapSampler.Proofs.Tables
import HeapSampler.Proofs.Releases
import HeapSampler.Proofs.Interning
import HeapSampler.Proofs.Capacity
import HeapSampler.Proofs.Snapshot
import HeapSampler.Proofs.Liveness
import HeapSampler.Proofs.Builder
import HeapSampler.Proofs.Export
import HeapSampler.Proofs.Lifetimes
import HeapSampler.Proofs.Forking
import HeapSampler.Proofs.Stacks
import HeapSampler.Proofs.Handles
import HeapSampler.Proofs.Listing
import HeapSampler.Proofs.Relocation
import HeapSampler.Proofs.Returns
import HeapSampler.Proofs.Captures

import FilterList.Grammar
import FilterList.Layout
import FilterList.Listing
import FilterList.Rendering
import FilterList.Walk
import FilterList.Proofs.Division.Append
import FilterList.Proofs.Division.Segmentation
import FilterList.Proofs.Listing.Grammar
import FilterList.Proofs.Division.Moved
import FilterList.Proofs.Reading.Failure
import FilterList.Proofs.Reading.Reached
import FilterList.Proofs.Reading.Cap
import FilterList.Proofs.Reading.Diagnostics
import FilterList.Proofs.Reading.Lines
import FilterList.Proofs.Reading.Lockstep
import FilterList.Proofs.Reading.Resumption
import FilterList.Proofs.Reading.Session
import FilterList.Proofs.Listing.Account
import FilterList.Proofs.Listing.Joined
import FilterList.Proofs.Walk.Agreement
import FilterList.Proofs.Division.Shifted
import FilterList.Proofs.Division.LastSegment
import FilterList.Proofs.Reading.Comment
import FilterList.Proofs.Listing.LineEnd
import FilterList.Proofs.Reading.Continuation
import FilterList.Proofs.Snippet
import FilterList.Proofs.Reading.Rendered
import FilterList.Proofs.Text.LineAt
import FilterList.Proofs.Reading.Renderable
import FilterList.Proofs.Listing.Glued
import FilterList.Proofs.Listing.Printed

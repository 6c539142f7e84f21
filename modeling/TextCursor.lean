import TextCursor.Script
import TextCursor.Shape.FromText
import TextCursor.Proofs.Bytes.InBounds
import TextCursor.Proofs.Reading.IndexPath
import TextCursor.Proofs.Reading.Lookahead
import TextCursor.Proofs.RoundTrip.IntegerNest
import TextCursor.Proofs.Lockstep.Logging
import TextCursor.Proofs.Lockstep.TextAhead
import TextCursor.Proofs.Walk.FailingLeaf
import TextCursor.Proofs.Walk.PostOrder
import TextCursor.Proofs.Operation.Attempt
import TextCursor.Proofs.Operation.Conservation
import TextCursor.Proofs.Reading.Termination
import TextCursor.Proofs.Operation.Diagnosis
import TextCursor.Proofs.Reading.Diagnosis
import TextCursor.Proofs.Lockstep.SamePlace
import TextCursor.Proofs.Reading.NotedPlaces
import TextCursor.Proofs.Lockstep.ListForm
import TextCursor.Proofs.Reading.EntryPoints
import TextCursor.Proofs.Reading.SharedSeparator
import TextCursor.Proofs.Reading.ListGrammar
import TextCursor.Proofs.RoundTrip.WordList
import TextCursor.Proofs.Text.PlaceValue
import TextCursor.Proofs.Operation.Decimal
import TextCursor.Proofs.Operation.Hexadecimal
import TextCursor.Proofs.Operation.Separator
import TextCursor.Proofs.Operation.Fields
import TextCursor.Proofs.Operation.Stepwise
import TextCursor.Proofs.Operation.AcceptedRun
import TextCursor.Proofs.Reading.Repadding
import TextCursor.Proofs.Reading.Context
import TextCursor.Proofs.Operation.Extraction
import TextCursor.Proofs.Reading.Provenance
import TextCursor.Proofs.Reading.PathText

import QueryEditor.Calendar
import QueryEditor.Catalog
import QueryEditor.Commit
import QueryEditor.Condition.Basic
import QueryEditor.Condition.Check
import QueryEditor.Condition.Issue
import QueryEditor.Condition.Report
import QueryEditor.Console.Arguments
import QueryEditor.Console.Check
import QueryEditor.Console.Config
import QueryEditor.Console.Files
import QueryEditor.Console.Layout
import QueryEditor.Console.Mode
import QueryEditor.Console.Operators
import QueryEditor.Console.Outcome
import QueryEditor.Console.Run
import QueryEditor.Console.Site
import QueryEditor.Console.Snapshot
import QueryEditor.DecimalNumeral
import QueryEditor.Guid
import QueryEditor.Json.Basic
import QueryEditor.Json.Printer
import QueryEditor.Json.Reader
import QueryEditor.Json.Record
import QueryEditor.Label.Field
import QueryEditor.Label.Source
import QueryEditor.Layout.Basic
import QueryEditor.Layout.Grid
import QueryEditor.Layout.Reconcile
import QueryEditor.Literal
import QueryEditor.Main
import QueryEditor.Markup.Element
import QueryEditor.Markup.Escape
import QueryEditor.Markup.Event
import QueryEditor.Markup.Tag
import QueryEditor.Offer
import QueryEditor.Operator.Basic
import QueryEditor.Operator.Table
import QueryEditor.Proofs.AttributeNames
import QueryEditor.Proofs.BlankScope
import QueryEditor.Proofs.CatalogContents
import QueryEditor.Proofs.CatalogOrder
import QueryEditor.Proofs.CatalogRuns
import QueryEditor.Proofs.ColumnNames
import QueryEditor.Proofs.CommandLines
import QueryEditor.Proofs.ConditionSite
import QueryEditor.Proofs.DocumentOrder
import QueryEditor.Proofs.EmptyElements
import QueryEditor.Proofs.EnteredLists
import QueryEditor.Proofs.ErrorReports
import QueryEditor.Proofs.GridDocuments
import QueryEditor.Proofs.GridPaths
import QueryEditor.Proofs.GuidSpellings
import QueryEditor.Proofs.JsonTexts
import QueryEditor.Proofs.LabelAnswers
import QueryEditor.Proofs.LabelRuns
import QueryEditor.Proofs.LayoutCells
import QueryEditor.Proofs.LayoutColumns
import QueryEditor.Proofs.LayoutCommand
import QueryEditor.Proofs.LayoutEntity
import QueryEditor.Proofs.LayoutRoundTrip
import QueryEditor.Proofs.LayoutRuns
import QueryEditor.Proofs.LayoutWidths
import QueryEditor.Proofs.LinkedScopes
import QueryEditor.Proofs.LookupEntity
import QueryEditor.Proofs.MarkupDocuments
import QueryEditor.Proofs.MarkupTags
import QueryEditor.Proofs.NodeArena
import QueryEditor.Proofs.Numerals
import QueryEditor.Proofs.PaddedCondition
import QueryEditor.Proofs.PaddedText
import QueryEditor.Proofs.PatternRanges
import QueryEditor.Proofs.PendingLists
import QueryEditor.Proofs.QueryRuns
import QueryEditor.Proofs.QueryTree
import QueryEditor.Proofs.ReportGrowth
import QueryEditor.Proofs.SavedCondition
import QueryEditor.Proofs.SavedQuery
import QueryEditor.Proofs.ServerVersions
import QueryEditor.Proofs.TakenCells
import QueryEditor.Proofs.TimestampReadings
import QueryEditor.Proofs.TimestampTexts
import QueryEditor.Proofs.TornDocuments
import QueryEditor.Proofs.TornTags
import QueryEditor.Proofs.Validation
import QueryEditor.Proofs.ValueFieldCases
import QueryEditor.Proofs.ValueFieldChecks
import QueryEditor.Proofs.ValueFieldChoices
import QueryEditor.Proofs.ValueFieldParts
import QueryEditor.Proofs.ValueLists
import QueryEditor.Proofs.ValueSources
import QueryEditor.Proofs.WiderTypes
import QueryEditor.Proofs.WidthLists
import QueryEditor.Proofs.WrittenRecords
import QueryEditor.Query.Column
import QueryEditor.Query.Tree
import QueryEditor.Schema.AttributeType
import QueryEditor.Schema.Basic
import QueryEditor.Schema.Codec
import QueryEditor.Scope
import QueryEditor.Server
import QueryEditor.Text.Blank
import QueryEditor.Text.Cut
import QueryEditor.Text.Numeral
import QueryEditor.TimestampLiteral
import QueryEditor.Toml.Basic
import QueryEditor.Toml.Number
import QueryEditor.Toml.Reader
import QueryEditor.Toml.Scalar
import QueryEditor.Toml.Table
import QueryEditor.Toml.Text
import QueryEditor.ValueField
import QueryEditor.ValueList

import OpenFlowController.Memory.Heap
import OpenFlowController.Queue.MessageQueue
import OpenFlowController.Channel.Receive
import OpenFlowController.Check.Actions
import OpenFlowController.Check.Messages
import OpenFlowController.Check.OpenFlowMessage
import OpenFlowController.Queue.MessageQueueRuns
import OpenFlowController.Convert.ActionShapes
import OpenFlowController.Convert.DecodeBounds
import OpenFlowController.Handler.Agreement
import OpenFlowController.Handler.Replies
import OpenFlowController.Check.Framing
import OpenFlowController.Check.Reporting
import OpenFlowController.Channel.Flush
import OpenFlowController.ThreadPool.Tasks
import OpenFlowController.ThreadPool.Shutdown
import OpenFlowController.Create.Records
import OpenFlowController.Create.FlowStatsReply
import OpenFlowController.Create.QueueConfigReply
import OpenFlowController.Create.ActionMessages
import OpenFlowController.Check.Termination
import OpenFlowController.Table.Iteration
import OpenFlowController.Send.TransactionIds
import OpenFlowController.Create.Payloads
import OpenFlowController.Buffers.BufferRuns
import OpenFlowController.Check.Nesting
import OpenFlowController.Check.RecordReplies
import OpenFlowController.Create.PortMod
import OpenFlowController.Handler.EchoMirror
import OpenFlowController.Create.HeaderBuffer
import OpenFlowController.Create.PayloadBuffers
import OpenFlowController.Channel.FlushBatch
import OpenFlowController.Channel.AppQueue
import OpenFlowController.Xid.Deletion
import OpenFlowController.Queue.Deletion
import OpenFlowController.Channel.FailedReads
import OpenFlowController.Handler.FeaturesReply
import OpenFlowController.Buffers.AppendBack
import OpenFlowController.Table.ListRuns
import OpenFlowController.Table.DeletingWalk
import OpenFlowController.Convert.InPlace
import OpenFlowController.Buffers.FrontGap
import OpenFlowController.Lists.SingleLink
import OpenFlowController.Lists.Deletion
import OpenFlowController.Utility.EndAroundCarry
import OpenFlowController.Utility.Checksum
import OpenFlowController.Utility.BoundedString
import OpenFlowController.Utility.ActionsToString
import OpenFlowController.Utility.ActionsConfined
import OpenFlowController.Table.BucketIndex
import OpenFlowController.Concurrency.Condition
import OpenFlowController.ThreadPool.Wakeups
import OpenFlowController.ThreadPool.Completion
import OpenFlowController.Memory.LiveCells
import OpenFlowController.Table.Accounting
import OpenFlowController.Table.TableDeletion
import OpenFlowController.Check.Acceptance
import OpenFlowController.Create.FixedMessages
import OpenFlowController.Create.BuiltAccepted
import OpenFlowController.Channel.Sessions
import OpenFlowController.Utility.Keys
import OpenFlowController.Lists.Sequences
import OpenFlowController.Xid.TableMemory
import OpenFlowController.Handler.Reactions
import OpenFlowController.Serving.Polling
import OpenFlowController.Utility.Texts
import OpenFlowController.Utility.ActionsTold
import OpenFlowController.Utility.Wildcards
import OpenFlowController.Utility.Descriptions
import OpenFlowController.Utility.DatapathIds
import OpenFlowController.Channel.Connection
import OpenFlowController.Concurrency.Serialization
import OpenFlowController.Queue.Interleavings
import OpenFlowController.Channel.Workers

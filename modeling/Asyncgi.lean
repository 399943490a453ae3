import Asyncgi.Output.Lossless
import Asyncgi.Output.Closing
import Asyncgi.Request.Answers
import Asyncgi.Request.Exceptions
import Asyncgi.Request.View
import Asyncgi.Queue.Reentry
import Asyncgi.Queue.Ownership
import Asyncgi.Queue.Pausing
import Asyncgi.Queue.Posting
import Asyncgi.Client.Timeout
import Asyncgi.Client.Disconnect
import Asyncgi.Client.Lifetime
import Asyncgi.Client.Overloads
import Asyncgi.Timer.Orders
import Asyncgi.Timer.WaitFuture
import Asyncgi.Listener.Accepting
import Asyncgi.Connection.Draining
import Asyncgi.Queue.Dispatching
import Asyncgi.Service.IOService
import Asyncgi.Service.Threads
import Asyncgi.Service.Stopping
import Asyncgi.Listener.Spreading
import Asyncgi.Request.Order
import Asyncgi.Queue.Nesting
import Asyncgi.Client.Writing
